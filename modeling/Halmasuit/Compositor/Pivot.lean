import Halmasuit.Compositor.Login

/-!
# The pivot and the privilege drop

A compositor that starts in the initramfs is root until the root file system is there. The
pivot-poll timer (`halmasuit/src/main.rs` 5825–6011) waits for the pivot, asks the broker for its
root directory and chroots into it, and in its last tick runs `run_post_pivot_setup` (2777–2929):
the greetd listener, the greeter, the input devices, and `drop_privileges` (4225–4281).
`run_post_pivot_setup` returns `Err` where it is still root, so that the unit dies and is restarted;
the `Setup` arm of the timer logs it.

* A `Process` is the compositor with its credentials and the phase of the timer. A tick of the timer
  runs only while the timer is registered.
* The outcome of each system call is an answer of the tick. Of the credentials the user and group
  ids are modelled; what `capset` and the audit of the threads say of the capabilities is their
  outcome.
* The process ends where the main loop finds `should_exit`.

Headlines:
* `dropPrivileges_ok_iff`: when the drop goes through.
* `process_runs`: a run of the process is a run of the compositor.
* `fail_closed_iff`: when the process does not go on as root after the `Setup` tick.
-/

namespace Halmasuit.Compositor

open Halmasuit.Greetd
open Halmasuit.Lib

/-! ## The environment -/

/-- A variable of the process environment. -/
inductive EnvVar where
  | unset
  | notUnicode
  | value (s : String)
  deriving DecidableEq, Repr

/-- `str::parse::<u32>`: decimal digits after an optional `+`, in range. -/
def parseU32 (s : String) : Option UInt32 :=
  let digits := match s.toList with
    | '+' :: rest => rest
    | cs => cs
  if digits = [] ∨ digits.any (!·.isDigit) then none
  else
    let n := digits.foldl (fun n c => 10 * n + (c.toNat - '0'.toNat)) 0
    if n < 2 ^ 32 then some (UInt32.ofNat n) else none

/-- Why `compositor_uid_from_env` fails. -/
inductive UidError where
  | notUtf8
  | notU32 (s : String)
  deriving DecidableEq, Repr

/-- `compositor_uid_from_env`, on `HALMASUIT_COMPOSITOR_UID`. -/
def compositorUidFromEnv : EnvVar → Except UidError (Option UInt32)
  | .unset => .ok none
  | .notUnicode => .error .notUtf8
  | .value s =>
    match parseU32 s with
    | some uid => .ok (some uid)
    | none => .error (.notU32 s)

/-- `HALMASUIT_COMPOSITOR_UID` and `HALMASUIT_COMPOSITOR_GID`. -/
structure Environment where
  uid : EnvVar
  gid : EnvVar
  deriving DecidableEq, Repr

/-! ## The drop -/

/-- The real, effective and saved ids of the process. -/
structure Creds where
  ruid : UInt32
  euid : UInt32
  suid : UInt32
  rgid : UInt32
  egid : UInt32
  sgid : UInt32
  deriving DecidableEq, Repr

def Creds.root : Creds := ⟨0, 0, 0, 0, 0, 0⟩

/-- `setresuid(uid, uid, uid)`. -/
def Creds.setresuid (c : Creds) (uid : UInt32) : Creds :=
  { c with ruid := uid, euid := uid, suid := uid }

/-- `setresgid(gid, gid, gid)`. -/
def Creds.setresgid (c : Creds) (gid : UInt32) : Creds :=
  { c with rgid := gid, egid := gid, sgid := gid }

/-- The outcomes of the steps of `drop_privileges`. -/
structure DropAnswers where
  setKeepcaps : Bool
  setresgid : Bool
  setresuid : Bool
  capset : Bool
  audit : Bool
  deriving DecidableEq, Repr

/-- Why `drop_privileges` fails. -/
inductive DropError where
  | setKeepcaps
  | gidRefused
  | gidNotU32 (s : String)
  | setresgid (gid : UInt32)
  | setresuid (uid : UInt32)
  | capset
  | audit
  deriving DecidableEq, Repr

/-- `target_gid` of `drop_privileges`: a gid of 0 is refused, and one that is not configured is the
effective gid. -/
def targetGid (gid : EnvVar) (egid : UInt32) : Except DropError UInt32 :=
  match gid with
  | .value s =>
    match parseU32 s with
    | some 0 => .error .gidRefused
    | some g => .ok g
    | none => .error (.gidNotU32 s)
  | _ => .ok egid

/-- `drop_privileges`. What was changed before a step that fails stays changed. -/
def dropPrivileges (gid : EnvVar) (k : DropAnswers) (c : Creds) (uid : UInt32) :
    Creds × Except DropError Unit :=
  if !k.setKeepcaps then (c, .error .setKeepcaps)
  else
    match targetGid gid c.egid with
    | .error e => (c, .error e)
    | .ok g =>
      if !k.setresgid then (c, .error (.setresgid g))
      else if !k.setresuid then (c.setresgid g, .error (.setresuid uid))
      else if !k.capset then ((c.setresgid g).setresuid uid, .error .capset)
      else if !k.audit then ((c.setresgid g).setresuid uid, .error .audit)
      else ((c.setresgid g).setresuid uid, .ok ())

/-- `HALMASUIT_COMPOSITOR_GID` is accepted: it is not set, or a number other than 0. -/
def gidAccepted : EnvVar → Bool
  | .value s => (parseU32 s).any (· ≠ 0)
  | _ => true

/-- Every step succeeds. -/
def DropAnswers.all (k : DropAnswers) : Bool :=
  k.setKeepcaps && k.setresgid && k.setresuid && k.capset && k.audit

theorem targetGid_ok_iff (gid : EnvVar) (egid : UInt32) :
    (∃ g, targetGid gid egid = .ok g) ↔ gidAccepted gid = true := by
  unfold targetGid gidAccepted
  cases gid with
  | unset => simp
  | notUnicode => simp
  | value s =>
    dsimp only
    split
    · rename_i h
      simp [h]
    · rename_i g hg h
      simpa [h] using hg
    · rename_i h
      simp [h]

/-- **The drop.** It goes through if and only if the gid is accepted and every step succeeds. -/
theorem dropPrivileges_ok_iff (gid : EnvVar) (k : DropAnswers) (c : Creds) (uid : UInt32) :
    (dropPrivileges gid k c uid).2 = .ok () ↔ gidAccepted gid = true ∧ k.all = true := by
  rw [← targetGid_ok_iff gid c.egid]
  unfold dropPrivileges DropAnswers.all
  cases k.setKeepcaps
  · simp
  · cases hg : targetGid gid c.egid with
    | error e => simp
    | ok g => cases k.setresgid <;> cases k.setresuid <;> cases k.capset <;> cases k.audit <;> simp

/-- Where it goes through, no uid of the process is another one. -/
theorem dropPrivileges_uids {gid : EnvVar} {k : DropAnswers} {c : Creds} {uid : UInt32}
    (h : (dropPrivileges gid k c uid).2 = .ok ()) :
    (dropPrivileges gid k c uid).1.ruid = uid ∧ (dropPrivileges gid k c uid).1.euid = uid ∧
      (dropPrivileges gid k c uid).1.suid = uid := by
  obtain ⟨hgid, hk⟩ := (dropPrivileges_ok_iff gid k c uid).mp h
  obtain ⟨g, hg⟩ := (targetGid_ok_iff gid c.egid).mpr hgid
  simp only [DropAnswers.all, Bool.and_eq_true] at hk
  unfold dropPrivileges
  rw [hg]
  simp [hk, Creds.setresuid]

/-! ## The timer -/

/-- `BROKER_CONNECT_DEADLINE`, in milliseconds. -/
def brokerConnectDeadline : Nat := 90000

/-- `BROKER_CONNECT_WARN_EVERY`. -/
def brokerConnectWarnEvery : Nat := 10000

/-- `PivotPhase`, with times in milliseconds. -/
inductive PivotPhase where
  | awaiting
  | connecting (deadline nextDelay nextWarn : Nat)
  | awaitingReply (deadline : Nat)
  | setup
  deriving DecidableEq, Repr

/-- `TimeoutAction`. -/
inductive TimeoutAction where
  | toDuration (ms : Nat)
  | drop
  deriving DecidableEq, Repr

/-- The result of `try_recv_root_fd`. -/
inductive RootFdRecv where
  | fd
  | pending
  | error
  deriving DecidableEq, Repr

/-- The outcomes of the steps of `run_post_pivot_setup`. -/
structure SetupAnswers where
  /-- `setup_greetd_listener`. -/
  listener : Option (UInt32 × String)
  /-- `broker_spawn_greeter`. -/
  spawnGreeter : Option UInt32
  /-- `setup_libinput_direct`. -/
  input : Bool
  drop : DropAnswers
  deriving DecidableEq, Repr

/-- What a tick reads of the world. -/
structure Tick where
  now : Nat
  isInitramfs : Bool
  /-- `try_connect_and_request_root_fd`. -/
  connect : Bool
  recv : RootFdRecv
  /-- `apply_chroot_to_root_fd`. -/
  chroot : Bool
  setup : SetupAnswers
  deriving DecidableEq, Repr

/-- The steps of the setup that may fail and are gone past. -/
inductive StepError where
  | setupGreetdListener
  | brokerSpawnGreeter
  | setupLibinputDirect
  deriving DecidableEq, Repr

/-- Why `run_post_pivot_setup` fails. -/
inductive SetupError where
  | uid (e : UidError)
  | drop (uid : UInt32) (e : DropError) (prior : List StepError)
  | rootWithoutUid (prior : List StepError)
  deriving DecidableEq, Repr

/-- What the process does, in order. -/
inductive PivotEvent where
  | compositor (e : Event)
  | rootfsReady
  /-- The root directory of the broker, or that of the initramfs still. -/
  | migrated (chrooted : Bool)
  | deprivileged
  /-- The error that the `Setup` arm logs. -/
  | setupFailed (e : SetupError)
  deriving DecidableEq

/-- The compositor as a process. -/
structure Process where
  compositor : HalmasuitState
  creds : Creds
  phase : PivotPhase
  inInitramfs : Bool
  /-- `libinput_token` is `Some`. -/
  libinputToken : Bool

/-- The `Setup` tick, as a callback of the compositor. -/
def HalmasuitState.Input.isSetup : HalmasuitState.Input → Bool
  | .postPivotSetup _ _ _ => true
  | _ => false

namespace Process

/-- The process that `main` starts in the initramfs, as root. -/
def boot (greeterUid : UInt32) (pamService : String) (libinputToken : Bool) : Process :=
  ⟨.start true greeterUid pamService none, .root, .awaiting, true, libinputToken⟩

/-- The steps of the setup that failed. -/
def stepErrors (p : Process) (a : SetupAnswers) : List StepError :=
  (if a.listener.isNone then [.setupGreetdListener] else []) ++
  (if a.spawnGreeter.isNone then [.brokerSpawnGreeter] else []) ++
  if !p.libinputToken && !a.input then [.setupLibinputDirect] else []

/-- `run_post_pivot_setup`, given what became of the credentials. -/
def setUp (p : Process) (a : SetupAnswers) (creds : Creds) (dropped : Bool) :
    Process × List PivotEvent :=
  let r := p.compositor.postPivotSetup a.listener a.spawnGreeter dropped
  ({ p with
      compositor := r.1
      creds := creds
      libinputToken := p.libinputToken || a.input },
    r.2.map .compositor ++ if dropped then [.deprivileged] else [])

/-- `run_post_pivot_setup`. -/
def runPostPivotSetup (env : Environment) (p : Process) (a : SetupAnswers) :
    (Process × List PivotEvent) × Except SetupError Unit :=
  let prior := p.stepErrors a
  match compositorUidFromEnv env.uid with
  | .error e => (p.setUp a p.creds false, .error (.uid e))
  | .ok (some uid) =>
    let d := dropPrivileges env.gid a.drop p.creds uid
    match d.2 with
    | .error e => (p.setUp a d.1 false, .error (.drop uid e prior))
    | .ok () => (p.setUp a d.1 true, .ok ())
  | .ok none =>
    if p.creds.euid = 0 then (p.setUp a p.creds false, .error (.rootWithoutUid prior))
    else (p.setUp a p.creds false, .ok ())

/-- One tick of the pivot-poll timer. -/
def tick (env : Environment) (p : Process) (t : Tick) :
    (Process × List PivotEvent) × TimeoutAction :=
  match p.phase with
  | .awaiting =>
    if t.isInitramfs then ((p, []), .toDuration 1000)
    else
      (({ p with
          inInitramfs := false
          phase := .connecting (t.now + brokerConnectDeadline) 20
            (t.now + brokerConnectWarnEvery) },
        [.rootfsReady]), .toDuration 20)
  | .connecting deadline nextDelay nextWarn =>
    if t.connect then (({ p with phase := .awaitingReply (t.now + 5000) }, []), .toDuration 50)
    else if deadline ≤ t.now then
      (({ p with phase := .setup }, [.migrated false]), .toDuration 0)
    else
      let nextWarn := if nextWarn ≤ t.now then t.now + brokerConnectWarnEvery else nextWarn
      (({ p with phase := .connecting deadline (min (nextDelay * 2) 200) nextWarn }, []),
        .toDuration nextDelay)
  | .awaitingReply deadline =>
    match t.recv with
    | .fd => (({ p with phase := .setup }, [.migrated t.chroot]), .toDuration 0)
    | .pending =>
      if deadline ≤ t.now then (({ p with phase := .setup }, [.migrated false]), .toDuration 0)
      else ((p, []), .toDuration 50)
    | .error => (({ p with phase := .setup }, [.migrated false]), .toDuration 0)
  | .setup =>
    let r := p.runPostPivotSetup env t.setup
    match r.2 with
    | .ok () => (r.1, .drop)
    | .error e => ((r.1.1, r.1.2 ++ [.setupFailed e]), .drop)

/-- A tick of the timer, or any other callback. -/
inductive ProcessInput where
  | tick (t : Tick)
  | callback (i : HalmasuitState.Input)

/-- One callback of the process's event loop; the `Setup` tick is the timer's own. -/
def step (env : Environment) (fromSlice : List UInt8 → Option Request) (p : Process) :
    ProcessInput → Process × List PivotEvent
  | .tick t => if Source.pivotPoll ∈ p.compositor.sources then (p.tick env t).1 else (p, [])
  | .callback i =>
    if i.isSetup then (p, [])
    else
      let r := p.compositor.step fromSlice i
      ({ p with compositor := r.1 }, r.2.map .compositor)

end Process

/-! ## What the other callbacks leave -/

theorem Scene.feedGate_stop (s : Scene) (c : GateCall) (w : Answers) :
    (s.feedGate c w).1.shutdownArmed = s.shutdownArmed ∧
      (s.feedGate c w).1.shouldExit = s.shouldExit := by
  cases h : (s.swap.call c).1 with
  | none =>
    rw [feedGate_none s c w h]
    exact ⟨rfl, rfl⟩
  | swap =>
    rw [feedGate_swap s c w h]
    exact ⟨rfl, rfl⟩
  | revert =>
    rw [feedGate_revert s c w h]
    exact ⟨rfl, rfl⟩

namespace HalmasuitState

/-- Before the drop, no callback but the `Setup` tick arms the stop signals, and none asks the main
loop to end. -/
theorem Moves.unarmed {s : HalmasuitState} {i : Input} {sc : Scene} {es : List Event}
    (h : Moves s i sc es) (hi : i.isSetup = false) (ha : s.shutdownArmed = false) :
    sc.shutdownArmed = false ∧ sc.shouldExit = s.shouldExit := by
  cases h with
  | records hc hes =>
    rw [Scene.records_eq]
    exact ⟨ha, rfl⟩
  | broker hc hes =>
    rw [(Scene.feedGate_stop _ _ _).1, (Scene.feedGate_stop _ _ _).2]
    exact ⟨ha, rfl⟩
  | leader hc =>
    rw [(Scene.feedGate_stop _ _ _).1, (Scene.feedGate_stop _ _ _).2]
    exact ⟨ha, rfl⟩
  | commit hcl =>
    rename_i k w
    cases hc : s.toScene.commitCall k with
    | none =>
      obtain ⟨roles, gs, f, heq, -⟩ := Scene.commit_none _ w hc
      rw [heq]
      exact ⟨ha, rfl⟩
    | some c =>
      obtain ⟨roles, gs, f, heq, -⟩ := Scene.commit_some _ w hc
      rw [heq]
      dsimp only
      rw [(Scene.feedGate_stop _ _ _).1, (Scene.feedGate_stop _ _ _).2]
      exact ⟨ha, rfl⟩
  | newToplevel hcl => exact ⟨ha, rfl⟩
  | toplevelDestroyed hcl =>
    rename_i t live w
    cases hc : s.toScene.destroyedCall t live with
    | none =>
      rcases (Scene.toplevelDestroyed_none _ w hc).2 with heq | ⟨-, heq⟩
      · rw [heq]
        exact ⟨ha, rfl⟩
      · rw [heq]
        exact ⟨ha, rfl⟩
    | some c =>
      rw [(Scene.toplevelDestroyed_some _ w hc).2.2, (Scene.feedGate_stop _ _ _).1,
        (Scene.feedGate_stop _ _ _).2]
      exact ⟨ha, rfl⟩
  | prepareForShutdown =>
    rename_i arming w
    rcases s.toScene.prepareForShutdown_cases w arming with heq | ⟨-, heq⟩
    · rw [heq]
      exact ⟨ha, rfl⟩
    · rw [heq]
      exact ⟨ha, rfl⟩
  | stopSignal =>
    rename_i w
    have hign : s.toScene.stopSignal w = (s.toScene, []) := by simp [Scene.stopSignal, ha]
    rw [hign]
    exact ⟨ha, rfl⟩
  | childReaped =>
    rename_i pid
    rcases s.toScene.reapZombieChild_cases pid with heq | heq
    · rw [heq]
      exact ⟨ha, rfl⟩
    · rw [heq]
      exact ⟨ha, rfl⟩
  | postPivotSetup hsrc => cases hi

theorem mem_of_unregister {s : HalmasuitState} {src src' : Source}
    (h : src' ∈ (s.unregister src).sources) : src' ∈ s.sources :=
  (List.mem_filter.mp h).1

theorem pivotPoll_greeterEnd {s : HalmasuitState} {id : Nat} {cs : ConnState}
    (h : Source.pivotPoll ∈ (greeterEnd s id cs).1.sources) : Source.pivotPoll ∈ s.sources := by
  unfold greeterEnd at h
  split at h
  · have h' := mem_of_unregister h
    split at h' <;> split at h'
    · exact mem_of_unregister (mem_of_unregister h')
    · exact mem_of_unregister h'
    · exact mem_of_unregister h'
    · exact h'
  · split at h
    · exact mem_of_unregister h
    · exact h

theorem pivotPoll_feedOutcome {s : HalmasuitState} {id : Nat} {out : EpisodeOutcome} {w : Answers}
    (h : Source.pivotPoll ∈ (s.feedOutcome id out w).1.sources) : Source.pivotPoll ∈ s.sources := by
  have harm : ∀ s' : HalmasuitState,
      Source.pivotPoll ∈ (s'.armLeaderPidfdBackstop id w.armPidfd).sources →
      Source.pivotPoll ∈ s'.sources := by
    intro s' hm
    unfold armLeaderPidfdBackstop at hm
    split at hm
    · exact hm
    · split at hm
      · exact hm
      · dsimp only at hm
        split at hm
        · simpa using hm
        · exact hm
  unfold feedOutcome at h
  dsimp only at h
  split at h <;> split at h
  · exact harm (s.feedGate (.sessionOpened id) w).1 h
  · exact h
  · exact harm (s.feedGate (.sessionOpened id) w).1 h
  · exact h

theorem pivotPoll_handleBrokerReady {fromSlice : List UInt8 → Option Request} {s : HalmasuitState}
    {id : Nat} {readable : Bool} {env : Env} {recv : Recv} {w : Answers}
    (h : Source.pivotPoll ∈ (s.handleBrokerReady fromSlice id readable env recv w).1.sources) :
    Source.pivotPoll ∈ s.sources := by
  have hend : ∀ (s' : HalmasuitState) {b b' : Bool},
      Source.pivotPoll ∈ (s'.brokerEnd id b b').sources → Source.pivotPoll ∈ s'.sources := by
    intro s' b b' hm
    unfold brokerEnd at hm
    split at hm
    · exact mem_of_unregister hm
    · exact hm
  unfold handleBrokerReady at h
  split at h
  · exact mem_of_unregister h
  · dsimp only at h
    split at h
    · have h' := pivotPoll_feedOutcome (hend _ h)
      exact h'
    · exact hend s h

/-- Only `main` registers the timer. -/
theorem pivotPoll_step (fromSlice : List UInt8 → Option Request) (s : HalmasuitState) (i : Input)
    (h : Source.pivotPoll ∈ (s.step fromSlice i).1.sources) : Source.pivotPoll ∈ s.sources := by
  revert h
  cases i with
  | accept a =>
    unfold step accept
    dsimp only
    split_ifs <;> simp
  | connectionReady id r =>
    unfold step
    dsimp only
    split_ifs
    · unfold handleConnectionReady
      split
      · exact mem_of_unregister
      · intro h
        have h' := pivotPoll_greeterEnd h
        exact h'
    · exact fun h => h
  | brokerReady id readable env recv w =>
    unfold step
    dsimp only
    split_ifs
    · exact pivotPoll_handleBrokerReady
    · exact fun h => h
  | leaderPidfdReady id w =>
    unfold step
    dsimp only
    split_ifs
    · unfold handleLeaderPidfdReady
      split <;> exact mem_of_unregister
    · exact fun h => h
  | idle =>
    unfold step idle
    dsimp only
    split
    · exact fun h => h
    · dsimp only
      split
      · split
        · exact mem_of_unregister
        · exact fun h => h
      · exact fun h => h
  | waylandConnect uid =>
    unfold step waylandConnect
    dsimp only
    split_ifs <;> exact fun h => h
  | postPivotSetup listener spawned dropped =>
    unfold step postPivotSetup
    dsimp only
    split_ifs
    · cases listener <;> exact mem_of_unregister
    · exact fun h => h
  | prepareForShutdown arming w => exact fun h => h
  | stopSignal w => exact fun h => h
  | childReaped pid => exact fun h => h
  | _ =>
    unfold step
    dsimp only
    split_ifs <;> exact fun h => h

end HalmasuitState

namespace Process

/-! ## The setup -/

/-- The setup of a process that is root goes through if and only if a uid is configured and the drop
to it goes through. -/
theorem runPostPivotSetup_ok_iff (env : Environment) {p : Process} (hroot : p.creds.euid = 0)
    (a : SetupAnswers) : (p.runPostPivotSetup env a).2 = .ok () ↔
      (∃ u, compositorUidFromEnv env.uid = .ok (some u)) ∧ gidAccepted env.gid = true ∧
        a.drop.all = true := by
  unfold runPostPivotSetup
  cases hu : compositorUidFromEnv env.uid with
  | error e => simp
  | ok o =>
    cases o with
    | none => simp [hroot]
    | some u =>
      have hd := dropPrivileges_ok_iff env.gid a.drop p.creds u
      dsimp only
      cases hr : (dropPrivileges env.gid a.drop p.creds u).2 with
      | error e =>
        rw [hr] at hd
        simp only [reduceCtorEq, false_iff] at hd ⊢
        exact fun h => hd h.2
      | ok r =>
        rw [hr] at hd
        exact ⟨fun _ => ⟨⟨u, rfl⟩, hd.mp rfl⟩, fun _ => rfl⟩

/-- The uids after a setup that goes through. -/
theorem runPostPivotSetup_uids {env : Environment} {p : Process} {a : SetupAnswers} {u : UInt32}
    (hu : compositorUidFromEnv env.uid = .ok (some u))
    (h : (p.runPostPivotSetup env a).2 = .ok ()) :
    (p.runPostPivotSetup env a).1.1.creds.ruid = u ∧
    (p.runPostPivotSetup env a).1.1.creds.euid = u ∧
      (p.runPostPivotSetup env a).1.1.creds.suid = u := by
  unfold runPostPivotSetup at h ⊢
  rw [hu] at h ⊢
  dsimp only at h ⊢
  cases hr : (dropPrivileges env.gid a.drop p.creds u).2 with
  | error e =>
    rw [hr] at h
    cases h
  | ok r => exact dropPrivileges_uids hr

/-- The setup acts on the compositor as its `Setup` callback. -/
theorem runPostPivotSetup_compositor (env : Environment) (p : Process) (a : SetupAnswers) :
    ∃ creds dropped, (p.runPostPivotSetup env a).1 = p.setUp a creds dropped := by
  unfold runPostPivotSetup
  split
  · exact ⟨_, _, rfl⟩
  · dsimp only
    split
    · exact ⟨_, _, rfl⟩
    · exact ⟨_, _, rfl⟩
  · split
    · exact ⟨_, _, rfl⟩
    · exact ⟨_, _, rfl⟩

/-! ## The process and the compositor -/

/-- What a tick does: it changes the phase, or it is the `Setup` tick. -/
theorem tick_cases (env : Environment) (p : Process) (t : Tick) :
    (p.phase ≠ .setup ∧ ∃ phase b,
      (p.tick env t).1.1 = { p with phase := phase, inInitramfs := b } ∧
      ∀ e ∈ (p.tick env t).1.2, e = .rootfsReady ∨ ∃ c, e = .migrated c) ∨
    (p.phase = .setup ∧ (p.tick env t).1.1 = (p.runPostPivotSetup env t.setup).1.1 ∧
      (((p.runPostPivotSetup env t.setup).2 = .ok () ∧
        (p.tick env t).1.2 = (p.runPostPivotSetup env t.setup).1.2) ∨
      ∃ e, (p.runPostPivotSetup env t.setup).2 = .error e ∧
        (p.tick env t).1.2 = (p.runPostPivotSetup env t.setup).1.2 ++ [.setupFailed e])) := by
  unfold tick
  cases hp : p.phase with
  | awaiting =>
    left
    refine ⟨by simp, ?_⟩
    dsimp only
    split
    · exact ⟨p.phase, p.inInitramfs, rfl, by simp⟩
    · exact ⟨_, _, rfl, by simp⟩
  | connecting deadline nextDelay nextWarn =>
    left
    refine ⟨by simp, ?_⟩
    dsimp only
    split
    · exact ⟨_, p.inInitramfs, rfl, by simp⟩
    · split
      · exact ⟨_, p.inInitramfs, rfl, by simp⟩
      · exact ⟨_, p.inInitramfs, rfl, by simp⟩
  | awaitingReply deadline =>
    left
    refine ⟨by simp, ?_⟩
    dsimp only
    split
    · exact ⟨_, p.inInitramfs, rfl, by simp⟩
    · split
      · exact ⟨_, p.inInitramfs, rfl, by simp⟩
      · exact ⟨p.phase, p.inInitramfs, rfl, by simp⟩
    · exact ⟨_, p.inInitramfs, rfl, by simp⟩
  | setup =>
    right
    dsimp only
    split
    · rename_i h
      exact ⟨rfl, rfl, .inl ⟨h, rfl⟩⟩
    · rename_i e h
      exact ⟨rfl, rfl, .inr ⟨e, h, rfl⟩⟩

section
variable (env : Environment) (fromSlice : List UInt8 → Option Request)

/-- A callback of the process is at most one callback of the compositor. -/
theorem step_compositor (p : Process) (i : ProcessInput) :
    ∃ is, (p.step env fromSlice i).1.compositor
      = (run (HalmasuitState.step fromSlice) p.compositor is).1 := by
  cases i with
  | tick t =>
    unfold step
    dsimp only
    split_ifs with hsrc
    · rcases tick_cases env p t with ⟨-, phase, b, heq, -⟩ | ⟨-, heq, -⟩
      · exact ⟨[], by rw [heq]; rfl⟩
      · obtain ⟨creds, dropped, hset⟩ := p.runPostPivotSetup_compositor env t.setup
        refine ⟨[.postPivotSetup t.setup.listener t.setup.spawnGreeter dropped], ?_⟩
        rw [heq, hset]
        simp [setUp, run, HalmasuitState.step, hsrc]
    · exact ⟨[], rfl⟩
  | callback i =>
    unfold step
    dsimp only
    split_ifs
    · exact ⟨[], rfl⟩
    · exact ⟨[i], rfl⟩

/-- **A run of the process is a run of the compositor**, so that what holds of every state the
compositor can reach holds of the process. -/
theorem process_runs (is : List ProcessInput) : ∀ p : Process, ∃ is',
    (run (step env fromSlice) p is).1.compositor
      = (run (HalmasuitState.step fromSlice) p.compositor is').1 := by
  induction is with
  | nil => exact fun p => ⟨[], rfl⟩
  | cons i is ih =>
    intro p
    obtain ⟨is₁, h₁⟩ := p.step_compositor env fromSlice i
    obtain ⟨is₂, h₂⟩ := ih (p.step env fromSlice i).1
    refine ⟨is₁ ++ is₂, ?_⟩
    rw [run_append, ← h₁]
    exact h₂

/-! ## Failing closed -/

/-- The process is about to end, or it runs as the configured user, which is not root, and no step
of the setup that it could not do without has failed. -/
def FailClosed (p : Process) (tr : List PivotEvent) : Prop :=
  p.compositor.shouldExit = true ∨ ∃ u, compositorUidFromEnv env.uid = .ok (some u) ∧ u ≠ 0 ∧
    p.creds.ruid = u ∧ p.creds.euid = u ∧ p.creds.suid = u ∧ ∀ e, .setupFailed e ∉ tr

/-- A user other than root is configured, the gid is accepted, and every step of the drop
succeeds. -/
def Drops (a : SetupAnswers) : Prop :=
  (∃ u, compositorUidFromEnv env.uid = .ok (some u) ∧ u ≠ 0) ∧ gidAccepted env.gid = true ∧
    a.drop.all = true

/-- While the timer runs, the process is root and does not end. -/
structure Booting (p : Process) (tr : List PivotEvent) : Prop where
  root : p.creds = .root
  unarmed : p.compositor.shutdownArmed = false
  running : p.compositor.shouldExit = false
  quiet : ∀ e, .setupFailed e ∉ tr

theorem setupFailed_notMem_compositor (es : List Event) (e : SetupError) :
    .setupFailed e ∉ es.map PivotEvent.compositor := by
  intro h
  obtain ⟨_, -, heq⟩ := List.mem_map.mp h
  cases heq

theorem setUp_spec (p : Process) (a : SetupAnswers) (creds : Creds) (dropped : Bool) :
    (p.setUp a creds dropped).1.compositor.shouldExit = p.compositor.shouldExit ∧
    (p.setUp a creds dropped).1.creds = creds ∧
    Source.pivotPoll ∉ (p.setUp a creds dropped).1.compositor.sources ∧
    ∀ e, .setupFailed e ∉ (p.setUp a creds dropped).2 := by
  have hexit : ∀ s : HalmasuitState,
      (s.postPivotSetup a.listener a.spawnGreeter dropped).1.shouldExit
      = s.shouldExit := by
    intro s
    obtain ⟨gs, heq⟩ := s.postPivotSetup_scene a.listener a.spawnGreeter dropped
    rw [heq]
  have hpoll : ∀ s : HalmasuitState,
      Source.pivotPoll ∉ (s.postPivotSetup a.listener a.spawnGreeter dropped).1.sources := by
    intro s
    unfold HalmasuitState.postPivotSetup HalmasuitState.onScene HalmasuitState.unregister
    simp
  refine ⟨hexit p.compositor, rfl, hpoll p.compositor, ?_⟩
  intro e h
  rcases List.mem_append.mp h with h | h
  · exact setupFailed_notMem_compositor _ e h
  · cases dropped with
    | true => simp at h
    | false => cases h

theorem booting_step (p : Process) (tr : List PivotEvent) (i : ProcessInput)
    (h : Source.pivotPoll ∈ p.compositor.sources → Booting p tr)
    (hpoll : Source.pivotPoll ∈ (p.step env fromSlice i).1.compositor.sources) :
    Booting (p.step env fromSlice i).1 (tr ++ (p.step env fromSlice i).2) := by
  cases i with
  | tick t =>
    unfold step at hpoll ⊢
    dsimp only at hpoll ⊢
    split_ifs at hpoll ⊢ with hsrc
    · obtain ⟨hroot, hunarmed, hrunning, hquiet⟩ := h hsrc
      rcases tick_cases env p t with ⟨-, phase, b, heq, hev⟩ | ⟨-, heq, -⟩
      · refine ⟨by rw [heq]; exact hroot, by rw [heq]; exact hunarmed,
          by rw [heq]; exact hrunning, ?_⟩
        intro e hm
        rcases List.mem_append.mp hm with hm | hm
        · exact hquiet e hm
        · rcases hev _ hm with h' | ⟨c, h'⟩ <;> cases h'
      · obtain ⟨creds, dropped, hset⟩ := p.runPostPivotSetup_compositor env t.setup
        rw [heq, hset] at hpoll
        exact absurd hpoll (p.setUp_spec t.setup creds dropped).2.2.1
    · exact absurd hpoll hsrc
  | callback i =>
    unfold step at hpoll ⊢
    dsimp only at hpoll ⊢
    split_ifs at hpoll ⊢ with hi
    · obtain ⟨hroot, hunarmed, hrunning, hquiet⟩ := h hpoll
      exact ⟨hroot, hunarmed, hrunning, by simpa using hquiet⟩
    · obtain ⟨hroot, hunarmed, hrunning, hquiet⟩ :=
        h (HalmasuitState.pivotPoll_step fromSlice p.compositor i hpoll)
      obtain ⟨hunarmed', hexit⟩ := (p.compositor.step_moves fromSlice i).unarmed (by simpa using hi)
        hunarmed
      refine ⟨hroot, hunarmed', hexit.trans hrunning, ?_⟩
      intro e hm
      rcases List.mem_append.mp hm with hm | hm
      · exact hquiet e hm
      · exact setupFailed_notMem_compositor _ e hm

/-- Once the timer is gone, the credentials stay. -/
theorem settled_step (p : Process) (i : ProcessInput)
    (h : Source.pivotPoll ∉ p.compositor.sources) :
    (p.step env fromSlice i).1.creds = p.creds ∧
    Source.pivotPoll ∉ (p.step env fromSlice i).1.compositor.sources ∧
    ∀ e, .setupFailed e ∉ (p.step env fromSlice i).2 := by
  cases i with
  | tick t =>
    unfold step
    dsimp only
    rw [if_neg h]
    exact ⟨rfl, h, by simp⟩
  | callback i =>
    unfold step
    dsimp only
    split_ifs
    · exact ⟨rfl, h, by simp⟩
    · refine ⟨rfl, ?_, setupFailed_notMem_compositor _⟩
      intro hm
      exact h (HalmasuitState.pivotPoll_step fromSlice p.compositor i hm)

theorem settled_run (is : List ProcessInput) : ∀ p : Process,
    Source.pivotPoll ∉ p.compositor.sources →
    (run (step env fromSlice) p is).1.creds = p.creds ∧
    ∀ e, .setupFailed e ∉ (run (step env fromSlice) p is).2 := by
  induction is with
  | nil => exact fun p _ => ⟨rfl, by simp [run]⟩
  | cons i is ih =>
    intro p h
    obtain ⟨hcreds, hpoll, hquiet⟩ := p.settled_step env fromSlice i h
    obtain ⟨hcreds', hquiet'⟩ := ih _ hpoll
    refine ⟨hcreds'.trans hcreds, fun e hm => ?_⟩
    rcases List.mem_append.mp hm with hm | hm
    · exact hquiet e hm
    · exact hquiet' e hm

/-- **The privilege drop fails closed.** For every run of the timer and of the other callbacks up to
the `Setup` tick, and every outcome of the tick: the process ends or goes on as the configured user
in every later state if and only if a user other than root is configured, the gid is accepted, and
every step of the drop succeeds. -/
theorem fail_closed_iff (greeterUid : UInt32) (pamService : String) (libinputToken : Bool)
    (pre : List ProcessInput) (t : Tick) :
    let p₀ := boot greeterUid pamService libinputToken
    let p := (run (step env fromSlice) p₀ pre).1
    p.phase = .setup → Source.pivotPoll ∈ p.compositor.sources →
    ((∀ post, FailClosed env (run (step env fromSlice) p₀ (pre ++ .tick t :: post)).1
      (run (step env fromSlice) p₀ (pre ++ .tick t :: post)).2) ↔ Drops env t.setup) := by
  intro p₀ p hphase hpoll
  have hboot : Booting p (run (step env fromSlice) p₀ pre).2 := by
    have hinv := run_invariant (fun p tr => Source.pivotPoll ∈ p.compositor.sources → Booting p tr)
      (booting_step env fromSlice) pre p₀ [] (fun _ => ⟨rfl, rfl, rfl, by simp⟩) hpoll
    rw [List.nil_append] at hinv
    exact hinv
  have hstep : p.step env fromSlice (.tick t) = (p.tick env t).1 := by simp [step, hpoll]
  obtain ⟨creds, dropped, hset⟩ := p.runPostPivotSetup_compositor env t.setup
  obtain ⟨hexit, -, hgone, hquiet⟩ := p.setUp_spec t.setup creds dropped
  rcases tick_cases env p t with ⟨hne, -⟩ | ⟨-, heq, hres⟩
  · exact absurd hphase hne
  have hroot : p.creds.euid = 0 := by rw [hboot.root]; rfl
  have hok := runPostPivotSetup_ok_iff env hroot t.setup
  have hrun : ∀ post, run (step env fromSlice) p₀ (pre ++ ProcessInput.tick t :: post)
      = ((run (step env fromSlice) (p.tick env t).1.1 post).1,
        (run (step env fromSlice) p₀ pre).2 ++
        ((p.tick env t).1.2 ++ (run (step env fromSlice) (p.tick env t).1.1 post).2)) := by
    intro post
    rw [run_append, ← hstep]
    rfl
  constructor
  · intro h
    have hnow := h []
    rw [hrun] at hnow
    rcases hnow with hend | ⟨u, hu, hu0, -, -, -, hno⟩
    · have hfalse : (p.tick env t).1.1.compositor.shouldExit = false := by
        rw [heq, hset, hexit]
        exact hboot.running
      rw [show (p.tick env t).1.1.compositor.shouldExit = true from hend] at hfalse
      cases hfalse
    · rcases hres with ⟨hr, -⟩ | ⟨e, -, hev⟩
      · exact ⟨⟨u, hu, hu0⟩, (hok.mp hr).2⟩
      · exact absurd (by rw [hev]; simp) (hno e)
  · rintro ⟨⟨u, hu, hu0⟩, hrest⟩ post
    have hr : (p.runPostPivotSetup env t.setup).2 = .ok () := hok.mpr ⟨⟨u, hu⟩, hrest⟩
    have hev : (p.tick env t).1.2 = (p.runPostPivotSetup env t.setup).1.2 := by
      rcases hres with ⟨-, hev⟩ | ⟨e, herr, -⟩
      · exact hev
      · rw [hr] at herr
        cases herr
    have hpoll' : Source.pivotPoll ∉ (p.tick env t).1.1.compositor.sources := by
      rw [heq, hset]
      exact hgone
    obtain ⟨hcreds, hquiet'⟩ := settled_run env fromSlice post _ hpoll'
    have huids := runPostPivotSetup_uids hu hr
    rw [← heq, ← hcreds] at huids
    rw [hrun]
    refine .inr ⟨u, hu, hu0, huids.1, huids.2.1, huids.2.2, fun e hm => ?_⟩
    rcases List.mem_append.mp hm with hm | hm
    · exact hboot.quiet e hm
    · rcases List.mem_append.mp hm with hm | hm
      · rw [hev, hset] at hm
        exact hquiet e hm
      · exact hquiet' e hm

end

/-- The uid and the gid that the initramfs unit configures. -/
def configured : Environment := ⟨.value "998", .value "997"⟩

/-- A tick at which everything succeeds but what the drop does. -/
def goodTick (k : DropAnswers) : Tick :=
  ⟨0, false, true, .fd, true, ⟨some (990, "halmasuit"), some 50, true, k⟩⟩

/-- The pivot, the broker's connection, its reply. -/
def migration : List ProcessInput :=
  [.tick (goodTick ⟨true, true, true, true, true⟩), .tick (goodTick ⟨true, true, true, true, true⟩),
    .tick (goodTick ⟨true, true, true, true, true⟩)]

/-- A boot in which every step succeeds. -/
theorem good_boot_drops : ∀ post,
    let r := run (step configured readRequest) (boot 0 "halmasuit" false)
      (migration ++ .tick (goodTick ⟨true, true, true, true, true⟩) :: post)
    FailClosed configured r.1 r.2 :=
  (fail_closed_iff configured readRequest 0 "halmasuit" false migration
    (goodTick ⟨true, true, true, true, true⟩) (by decide +kernel) (by decide +kernel)).mpr
    ⟨⟨998, by decide +kernel, by decide⟩, by decide +kernel, by decide⟩

/-- `setresuid` fails: the setup says so, the timer logs it, and the process goes on as root, takes
the next greeter's connection, and does not listen to a stop signal. -/
theorem failed_drop_goes_on_as_root :
    let r := run (step configured readRequest) (boot 0 "halmasuit" false)
      (migration ++ [.tick (goodTick ⟨true, true, false, true, true⟩),
        .callback (.accept ⟨990, true, true, true, true⟩),
          .callback (.stopSignal HalmasuitState.calm)])
    .setupFailed (.drop 998 (.setresuid 998) []) ∈ r.2 ∧ r.1.creds = ⟨0, 0, 0, 997, 997, 997⟩ ∧
      r.1.compositor.shouldExit = false ∧ r.1.compositor.connections.keys = [0] ∧
      ¬ FailClosed configured r.1 r.2 := by
  intro r
  have hfailed : .setupFailed (.drop 998 (.setresuid 998) []) ∈ r.2 := by decide +kernel
  have hexit : r.1.compositor.shouldExit = false := by decide +kernel
  refine ⟨hfailed, by decide +kernel, hexit, by decide +kernel, ?_⟩
  rintro (hend | ⟨u, -, -, -, -, -, hno⟩)
  · rw [hexit] at hend
    cases hend
  · exact hno _ hfailed

end Process

end Halmasuit.Compositor
