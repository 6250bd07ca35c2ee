import Halmasuit.Broker.Pending
import Halmasuit.Session.Spawn

/-!
# The greeter

The broker forks a greeter for a `SpawnGreeter` (`broker.rs` 547–601, 846–943), from the identity,
the command and the environment that its own environment gives (`worker.rs` 761–1040); the frame
carries nothing. Greeters are watched by their pidfd, and reaped when they exit. The two machines of
the module are the broker process with the children it forks for greeters.

A variable is read with `std::env::var`, and one that is not Unicode is like one that is unset.

- **`greeter_confined`**: on every run, whatever is forked for a greeter was asked for by root or
  the relay peer, and is the program of the environment, run by its user for good;
- **`greeters_reaped`**: on every run, the broker signals and waits for exactly the greeters it
  watches, each once, the group before the wait.
-/

namespace Halmasuit.Broker

open Halmasuit.Lib
open Halmasuit.Lib.Credentials
open Halmasuit.Lib.Text (fromStrRadix)
open Halmasuit.SessionIpc
open Halmasuit.Session (Image Kernel SpawnError Spawned childExec childExec_ok childExec_error
  dieCodes forked forked_child hasNul setuidKernel toC)

/-! ## The spec -/

/-- The environment of the broker. -/
abbrev Env : Type := String → Option String

/-- `GreeterSpec`. -/
structure GreeterSpec where
  uid : UInt32
  gid : UInt32
  name : String
  home : String
  command : String
  greetdSock : String
  deriving DecidableEq, Repr

/-- `str::parse::<u32>`. -/
def parseU32 (s : String) : Option UInt32 :=
  (fromStrRadix 10 UInt32.size s.toList).map UInt32.ofNat

/-- `greeter_spec_from_env`. -/
def greeterSpecFromEnv (env : Env) : Except String GreeterSpec :=
  match (env "HALMASUIT_GREETER_UID").bind parseU32 with
  | none => .error "HALMASUIT_GREETER_UID missing or unparsable"
  | some uid =>
    let command := (env "HALMASUIT_GREETER_COMMAND").getD ""
    if command = "" then .error "HALMASUIT_GREETER_COMMAND empty"
    else
      .ok {
        uid := uid
        gid := ((env "HALMASUIT_GREETER_GID").bind parseU32).getD uid
        name := (env "HALMASUIT_GREETER_NAME").getD s!"halmasuit-greeter-{uid}"
        home := (env "HALMASUIT_GREETER_HOME").getD "/var/empty"
        command := command
        greetdSock := (env "HALMASUIT_GREETD_SOCKET").getD "/run/halmasuit/greetd.sock" }

/-- `UID_FLOOR_GREETER`. -/
def uidFloorGreeter : UInt32 := 100

/-- `greeter_prefork_gates`. -/
def greeterPreforkGates (c : Creds CapSet) (spec : GreeterSpec) : Except SpawnError Unit :=
  if c.euid ≠ 0 then .error ⟨.permissionDenied, "spawn_greeter requires EUID=0"⟩
  else if spec.uid = 4294967295 ∨ spec.uid < uidFloorGreeter then
    .error ⟨.permissionDenied,
      s!"uid {spec.uid} below UID_FLOOR_GREETER ({uidFloorGreeter}) or is sentinel"⟩
  else if spec.gid = 4294967295 ∨ spec.gid < uidFloorGreeter then
    .error ⟨.permissionDenied,
      s!"gid {spec.gid} below UID_FLOOR_GREETER ({uidFloorGreeter}) or is sentinel"⟩
  else .ok ()

/-- `GREETER_ENV_PASSTHROUGH`. -/
def greeterEnvPassthrough : List String :=
  ["__EGL_VENDOR_LIBRARY_FILENAMES", "__EGL_EXTERNAL_PLATFORM_CONFIG_DIRS",
    "__GLX_VENDOR_LIBRARY_NAME", "LIBGL_DRIVERS_PATH"]

/-- `harvest_passthrough_env`. -/
def harvestPassthroughEnv (env : Env) : List (String × String) :=
  greeterEnvPassthrough.filterMap fun k => (env k).map (k, ·)

/-- `greeter_child_env_pairs`. -/
def greeterChildEnvPairs (env : Env) (spec : GreeterSpec) : List (String × String) :=
  [("USER", spec.name), ("LOGNAME", spec.name), ("HOME", spec.home),
    ("XDG_RUNTIME_DIR", "/run/halmasuit"), ("WAYLAND_DISPLAY", "wayland-0"),
    ("GREETD_SOCK", spec.greetdSock),
    ("PATH", "/run/wrappers/bin:/run/current-system/sw/bin:/usr/bin:/bin")] ++
  harvestPassthroughEnv env

/-- `build_greeter_cstrings`. The two paths come from texts, so they are in UTF-8. -/
def buildGreeterCstrings (env : Env) (spec : GreeterSpec) : Except SpawnError Image :=
  let envv := (greeterChildEnvPairs env spec).map fun kv => kv.1 ++ "=" ++ kv.2
  match toC "interior NUL in greeter arg/env" (spec.command :: envv) with
  | .error e => .error e
  | .ok () => .ok ⟨spec.command, [spec.command], envv⟩

/-- `greeter_child_exec`. -/
def greeterChildExec (uid gid : UInt32) (image : Image) (k : Kernel) (c : Creds CapSet) :
    Except Nat (Image × Creds CapSet) :=
  childExec uid gid [gid] image k c

/-- `spawn_greeter`. -/
def spawnGreeter (env : Env) (c : Creds CapSet) (spec : GreeterSpec) (k : Kernel) : Spawned :=
  match greeterPreforkGates c spec with
  | .error e => ⟨.error e, none⟩
  | .ok () =>
    match buildGreeterCstrings env spec with
    | .error e => ⟨.error e, none⟩
    | .ok image => forked (greeterChildExec spec.uid spec.gid image k c) k

/-- `serve_spawn_greeter_request`, where it gets to `spawn_greeter`. -/
def serveSpawnGreeterRequest (env : Env) (c : Creds CapSet) (k : Kernel)
    (puid relayPeerUid : UInt32) : Option Spawned :=
  if puid ≠ 0 ∧ puid ≠ relayPeerUid then none
  else
    match greeterSpecFromEnv env with
    | .error _ => none
    | .ok spec => some (spawnGreeter env c spec k)

/-! ## The broker with its greeters -/

/-- What happens to the greeters. -/
inductive GreeterEvent where
  /-- A child was forked for a `SpawnGreeter` of the peer. -/
  | forked (puid : UInt32) (child : Except Nat (Image × Creds CapSet))
  /-- `track_greeter` watches it. -/
  | tracked (pid : Pid)
  /-- SIGKILL to its process group. -/
  | killedGroup (pid : Pid)
  /-- `waitpid`. -/
  | waited (pid : Pid)

/-- The connection whose first frame is read, where that is a `SpawnGreeter`, and what became of the
request. -/
def BrokerProcess.spawning (env : Env) (c : Creds CapSet) (k : Kernel) (s : BrokerProcess)
    (id : Nat) : Except TransportError CompositorToBroker → Option (Pending × Spawned)
  | .ok .spawnGreeter => do
    let p ← s.bl.pending.find? (·.id = id)
    let r ← serveSpawnGreeterRequest env c k p.puid s.bl.slot.relayPeerUid
    return (p, r)
  | _ => none

/-- What a request leaves behind. -/
def GreeterEvent.ofSpawned (p : Pending) (r : Spawned) (registers : Bool) : List GreeterEvent :=
  (r.child.toList.map (.forked p.puid)) ++
    (if registers then r.parent.toOption.toList.map .tracked else [])

/-- One callback of the broker, whose environment and credentials stay what they are. -/
def BrokerProcess.greeterStep (idleExit : Nat) (env : Env) (c : Creds CapSet) (s : BrokerProcess)
    (i : LoopInput × Kernel) : BrokerProcess × List GreeterEvent :=
  if s.exit.isSome then (s, [])
  else
    match i.1 with
    | .firstFrame id recv w =>
      let r := s.spawning env c i.2 id recv
      let w := { w with spawnGreeter := r.bind fun r => r.2.parent.toOption }
      ((s.step idleExit (.firstFrame id recv w)).1,
        r.toList.flatMap fun r => GreeterEvent.ofSpawned r.1 r.2 w.registersGreeter)
    | .greeterExited pid =>
      ((s.step idleExit i.1).1,
        if s.bl.greeters.any (·.pid = pid) then [.killedGroup pid, .waited pid] else [])
    | _ => ((s.step idleExit i.1).1, [])

/-! ## What a greeter runs -/

/-- The program that the environment of the broker names, with the variables of a greeter, each
once. -/
structure GreeterImage (env : Env) (spec : GreeterSpec) (image : Image) : Prop where
  command : env "HALMASUIT_GREETER_COMMAND" = some spec.command ∧ spec.command ≠ ""
  path : image.path = spec.command
  argv : image.argv = [spec.command]
  envv : image.envv = (greeterChildEnvPairs env spec).map fun kv => kv.1 ++ "=" ++ kv.2
  names : ((greeterChildEnvPairs env spec).map Prod.fst).Nodup
  noNul : ∀ text ∈ image.path :: image.argv ++ image.envv, hasNul text = false

theorem harvestPassthroughEnv_names (env : Env) :
    ((harvestPassthroughEnv env).map Prod.fst).Sublist greeterEnvPassthrough := by
  unfold harvestPassthroughEnv
  induction greeterEnvPassthrough with
  | nil => exact List.Sublist.slnil
  | cons k ks ih =>
    rw [List.filterMap_cons]
    cases env k with
    | none => exact ih.cons k
    | some v => exact ih.cons_cons k

theorem names_nodup (env : Env) (spec : GreeterSpec) :
    ((greeterChildEnvPairs env spec).map Prod.fst).Nodup := by
  have hall : (["USER", "LOGNAME", "HOME", "XDG_RUNTIME_DIR", "WAYLAND_DISPLAY", "GREETD_SOCK",
      "PATH"] ++ greeterEnvPassthrough).Nodup := by decide
  refine hall.sublist ?_
  unfold greeterChildEnvPairs
  rw [List.map_append]
  exact (List.Sublist.refl _).append (harvestPassthroughEnv_names env)

theorem greeterSpecFromEnv_command {env : Env} {spec : GreeterSpec}
    (h : greeterSpecFromEnv env = .ok spec) :
    env "HALMASUIT_GREETER_COMMAND" = some spec.command ∧ spec.command ≠ "" := by
  unfold greeterSpecFromEnv at h
  split at h
  · cases h
  dsimp only at h
  split at h
  · cases h
  rename_i hne
  obtain rfl := Except.ok.inj h
  refine ⟨?_, hne⟩
  cases hc : env "HALMASUIT_GREETER_COMMAND" with
  | none => simp [hc] at hne
  | some command => rfl

theorem buildGreeterCstrings_ok {env : Env} {spec : GreeterSpec} {image : Image}
    (hspec : greeterSpecFromEnv env = .ok spec) (h : buildGreeterCstrings env spec = .ok image) :
    GreeterImage env spec image := by
  unfold buildGreeterCstrings at h
  dsimp only at h
  split at h
  · cases h
  rename_i hc
  obtain rfl := Except.ok.inj h
  refine ⟨greeterSpecFromEnv_command hspec, rfl, rfl, rfl, names_nodup env spec, fun text ht => ?_⟩
  unfold toC at hc
  split at hc
  · cases hc
  rename_i hnul
  refine Bool.eq_false_iff.mpr fun hn => hnul (List.any_eq_true.mpr ⟨text, ?_, hn⟩)
  simpa using ht

theorem greeterPreforkGates_ok {c : Creds CapSet} {spec : GreeterSpec}
    (h : greeterPreforkGates c spec = .ok ()) :
    c.euid = 0 ∧ (spec.uid ≠ 4294967295 ∧ uidFloorGreeter ≤ spec.uid) ∧
      spec.gid ≠ 4294967295 ∧ uidFloorGreeter ≤ spec.gid := by
  unfold greeterPreforkGates at h
  split at h
  · cases h
  rename_i hroot
  split at h
  · cases h
  rename_i huid
  split at h
  · cases h
  rename_i hgid
  simp only [not_or, UInt32.not_lt] at huid hgid
  exact ⟨by simpa using hroot, huid, hgid⟩

/-- What is right about a child that is forked for a greeter. -/
def Served (env : Env) (relayPeerUid puid : UInt32) (child : Except Nat (Image × Creds CapSet)) :
    Prop :=
  (puid = 0 ∨ puid = relayPeerUid) ∧ ∃ spec, greeterSpecFromEnv env = .ok spec ∧
    ((∃ code ∈ dieCodes, child = .error code) ∨
      ∃ image c, child = .ok (image, c) ∧ GreeterImage env spec image ∧
        uidFloorGreeter ≤ spec.uid ∧ uidFloorGreeter ≤ spec.gid ∧
        ∀ calls, Confined spec.uid spec.gid [spec.gid] (c.run linux calls))

theorem serveSpawnGreeterRequest_child {env : Env} {c : Creds CapSet} {k : Kernel}
    {puid relayPeerUid : UInt32} {r : Spawned} {child : Except Nat (Image × Creds CapSet)}
    (h : serveSpawnGreeterRequest env c k puid relayPeerUid = some r)
    (hchild : r.child = some child) : Served env relayPeerUid puid child := by
  unfold serveSpawnGreeterRequest at h
  split at h
  · cases h
  rename_i hgate
  have hpeer : puid = 0 ∨ puid = relayPeerUid := by
    by_contra hno
    exact hgate ⟨fun h0 => hno (.inl h0), fun h1 => hno (.inr h1)⟩
  split at h
  · cases h
  rename_i spec hspec
  obtain rfl := Option.some.inj h
  refine ⟨hpeer, spec, hspec, ?_⟩
  unfold spawnGreeter at hchild
  split at hchild
  · cases hchild
  rename_i hgates
  split at hchild
  · cases hchild
  rename_i image himage
  obtain rfl := forked_child hchild
  obtain ⟨hroot, ⟨hu, hufloor⟩, hg, hgfloor⟩ := greeterPreforkGates_ok hgates
  have hu0 : spec.uid ≠ 0 := by
    intro heq
    rw [heq] at hufloor
    exact absurd hufloor (by decide)
  unfold greeterChildExec
  cases he : childExec spec.uid spec.gid [spec.gid] image k c with
  | error code => exact .inl ⟨code, childExec_error he, rfl⟩
  | ok res =>
    obtain ⟨rfl, hconf⟩ := childExec_ok hroot hu0 hu hg he
    exact .inr ⟨res.1, res.2, rfl, buildGreeterCstrings_ok hspec himage, hufloor, hgfloor,
      fun calls => hconf.run hu0 calls⟩

/-! ## The greeters that are watched -/

section
variable (bl : BrokerLoop) (now : Instant)

/-- The pids of the watched greeters. -/
def BrokerLoop.greeterPids : List Pid := bl.greeters.map (·.pid)

@[simp] theorem armIdleIfQuiet_greeters : (bl.armIdleIfQuiet now).greeters = bl.greeters := by
  unfold BrokerLoop.armIdleIfQuiet
  split <;> rfl

@[simp] theorem dropActive_greeters : (bl.dropActive now).greeters = bl.greeters := by
  unfold BrokerLoop.dropActive
  split
  · rw [armIdleIfQuiet_greeters]
    rfl
  · exact armIdleIfQuiet_greeters bl now

theorem admitOne_greeters (accepted : Accepted) (registers : Bool) :
    (bl.admitOne accepted registers).1.greeters = bl.greeters := by
  have hroom : bl.makeRoom.1.greeters = bl.greeters := by
    unfold BrokerLoop.makeRoom
    split
    · split <;> rfl
    · rfl
  unfold BrokerLoop.admitOne
  split
  · rfl
  · rfl
  · rfl
  · split
    · rfl
    · dsimp only
      split <;> exact hroom

theorem activate_greeters (greeter : Nat) (puid : UInt32) (w : World) :
    (bl.activate greeter puid w).1.greeters = bl.greeters := by
  have hd := dropActive_greeters bl w.now
  rcases activate_cases bl greeter puid w with
    ⟨-, recent, heq⟩ | ⟨-, -, recent, heq⟩ | ⟨-, -, pid, recent, -, heq⟩
  · rw [heq]
    exact hd
  · rw [heq]
    exact hd
  · rw [heq]
    dsimp only
    split
    · split <;> exact hd
    · exact hd

theorem stepped_greeters {α : Type} (a : Active) (st : Stepped α) (waits : Bool) :
    (bl.stepped a st now waits).1.greeters = bl.greeters := by
  have hd := dropActive_greeters { bl with active := some { a with relay := st.relay } } now
  rcases stepped_cases bl a st now waits with heq | ⟨killed, heq⟩
  · rw [heq]
  · rw [heq]
    exact hd

theorem trackGreeter_pids (pid : Pid) (registers : Bool) :
    (bl.trackGreeter pid registers).greeterPids =
      bl.greeterPids ++ (if registers then [pid] else []) := by
  unfold BrokerLoop.trackGreeter BrokerLoop.greeterPids
  cases registers with
  | true => simp [BrokerLoop.registered]
  | false => simp

/-- A greeter that exited is no longer watched. -/
theorem reapGreeter_pids (pid : Pid) :
    bl.greeters.any (·.pid = pid) = true ∧
      bl.greeterPids.Perm ((bl.reapGreeter pid).greeterPids ++ [pid]) ∨
    bl.greeters.any (·.pid = pid) = false ∧ bl.reapGreeter pid = bl := by
  unfold BrokerLoop.reapGreeter
  cases hf : bl.greeters.find? (·.pid = pid) with
  | none =>
    refine .inr ⟨?_, rfl⟩
    rw [List.find?_eq_none] at hf
    rw [List.any_eq_false]
    exact hf
  | some g =>
    have hg := List.find?_some hf
    have hmem := List.mem_of_find?_eq_some hf
    obtain ⟨g', l₁, l₂, -, hg', hsplit, herase⟩ :=
      List.exists_of_eraseP (p := fun g : SpawnedGreeter => g.pid = pid) hmem hg
    refine .inl ⟨List.any_eq_true.mpr ⟨g, hmem, hg⟩, ?_⟩
    have hpid : g'.pid = pid := by simpa using hg'
    show (bl.greeters.map (·.pid)).Perm
      ((bl.greeters.eraseP (·.pid = pid)).map (·.pid) ++ [pid])
    rw [herase, hsplit, List.map_append, List.map_append, List.map_cons, hpid]
    exact List.perm_middle.trans (List.perm_append_singleton _ _).symm

end

theorem turn_greeters (idleExit : Nat) (s : BrokerProcess) (now : Instant) (accepted : Accepted)
    (registers : Bool) :
    (s.turn idleExit now accepted registers).1.bl.greeters = s.bl.greeters := by
  have hadm := admitOne_greeters s.bl accepted registers
  unfold BrokerProcess.turn
  dsimp only
  split
  · generalize s.bl.admitOne accepted registers = r at hadm
    obtain ⟨bl, es, res⟩ := r
    rcases res with u | b
    · exact hadm
    · cases b <;> exact hadm
  · rfl

/-- The greeters that a trace begins to watch. -/
def trackedIn (tr : List GreeterEvent) : List Pid :=
  tr.filterMap fun
    | .tracked pid => some pid
    | _ => none

/-- The greeters that a trace waits for. -/
def waitedIn (tr : List GreeterEvent) : List Pid :=
  tr.filterMap fun
    | .waited pid => some pid
    | _ => none

theorem trackedIn_append (tr tr' : List GreeterEvent) :
    trackedIn (tr ++ tr') = trackedIn tr ++ trackedIn tr' := List.filterMap_append

theorem waitedIn_append (tr tr' : List GreeterEvent) :
    waitedIn (tr ++ tr') = waitedIn tr ++ waitedIn tr' := List.filterMap_append

theorem ofSpawned_tracked (p : Pending) (r : Spawned) (registers : Bool) :
    trackedIn (GreeterEvent.ofSpawned p r registers) =
      (if registers then r.parent.toOption.toList else []) ∧
    waitedIn (GreeterEvent.ofSpawned p r registers) = [] := by
  unfold GreeterEvent.ofSpawned trackedIn waitedIn
  cases r.child <;> cases registers <;> cases r.parent <;> simp [Except.toOption]

section
variable {env : Env} {c : Creds CapSet} {k : Kernel} {s : BrokerProcess} {id : Nat}

theorem spawning_none (h : s.bl.pending.find? (·.id = id) = none)
    (recv : Except TransportError CompositorToBroker) : s.spawning env c k id recv = none := by
  unfold BrokerProcess.spawning
  split
  · simp [h]
  · rfl

theorem spawning_other {recv : Except TransportError CompositorToBroker}
    (h : recv ≠ .ok .spawnGreeter) : s.spawning env c k id recv = none := by
  unfold BrokerProcess.spawning
  split
  · exact absurd rfl h
  · rfl

theorem spawning_some {p : Pending} (h : s.bl.pending.find? (·.id = id) = some p) :
    s.spawning env c k id (.ok .spawnGreeter) =
      (serveSpawnGreeterRequest env c k p.puid s.bl.slot.relayPeerUid).map (p, ·) := by
  unfold BrokerProcess.spawning
  simp only [h, Option.bind_eq_bind, Option.bind_some]
  cases serveSpawnGreeterRequest env c k p.puid s.bl.slot.relayPeerUid <;> rfl

end

/-- Any other first frame leaves the greeters alone. -/
theorem firstFrameReady_greeters (bl : BrokerLoop) (id : Nat)
    {recv : Except TransportError CompositorToBroker} (h : recv ≠ .ok .spawnGreeter) (w : World) :
    (bl.firstFrameReady id recv w).1.greeters = bl.greeters := by
  unfold BrokerLoop.firstFrameReady
  split
  · rfl
  rename_i p hp
  dsimp only
  split
  · rw [armIdleIfQuiet_greeters, activate_greeters]
    rfl
  · rename_i pid hd
    unfold BrokerLoop.dispatchFirstFrame at hd
    split at hd
    all_goals first | cases hd | exact absurd rfl h
  · rw [armIdleIfQuiet_greeters]
    rfl

theorem firstFrameReady_spawnGreeter {bl : BrokerLoop} {id : Nat} {p : Pending}
    (hp : bl.pending.find? (·.id = id) = some p) (w : World) :
    (bl.firstFrameReady id (.ok .spawnGreeter) w).1.greeterPids = bl.greeterPids ++
      (if p.puid ≠ 0 ∧ p.puid ≠ bl.slot.relayPeerUid then []
      else if w.registersGreeter then w.spawnGreeter.toList else []) := by
  have harm : ∀ bl' : BrokerLoop, (bl'.armIdleIfQuiet w.now).greeterPids = bl'.greeterPids := by
    intro bl'
    rw [BrokerLoop.greeterPids, armIdleIfQuiet_greeters, BrokerLoop.greeterPids]
  unfold BrokerLoop.firstFrameReady
  rw [hp]
  dsimp only
  have hslot : ({ bl with pending := bl.pending.eraseP (·.id = id) }.remove p.token).slot = bl.slot :=
    rfl
  have hpids : ({ bl with pending := bl.pending.eraseP (·.id = id) }.remove p.token).greeterPids =
      bl.greeterPids := rfl
  generalize { bl with pending := bl.pending.eraseP (·.id = id) }.remove p.token = taken
    at hslot hpids
  unfold BrokerLoop.dispatchFirstFrame
  rw [hslot, ← hpids]
  by_cases hgate : p.puid ≠ 0 ∧ p.puid ≠ bl.slot.relayPeerUid
  · simp only [if_pos hgate, harm, List.append_nil]
  · simp only [if_neg hgate]
    cases w.spawnGreeter with
    | none => simp only [harm, Option.toList_none, ite_self, List.append_nil]
    | some pid => simp only [harm, trackGreeter_pids, Option.toList_some]

/-- The first frame of a connection: the greeters that are watched after it. -/
theorem firstFrame_pids (env : Env) (c : Creds CapSet) (k : Kernel) (s : BrokerProcess) (id : Nat)
    (recv : Except TransportError CompositorToBroker) (w : World) :
    let r := s.spawning env c k id recv
    let w := { w with spawnGreeter := r.bind fun r => r.2.parent.toOption }
    (s.bl.firstFrameReady id recv w).1.greeterPids = s.bl.greeterPids ++
      trackedIn (r.toList.flatMap fun r => GreeterEvent.ofSpawned r.1 r.2 w.registersGreeter) := by
  intro r w'
  by_cases hrecv : recv = .ok .spawnGreeter
  swap
  · have hr : r = none := by
      show s.spawning env c k id recv = none
      unfold BrokerProcess.spawning
      split
      · exact absurd rfl hrecv
      · rfl
    rw [BrokerLoop.greeterPids, firstFrameReady_greeters s.bl id hrecv w', hr]
    exact (List.append_nil _).symm
  subst hrecv
  cases hp : s.bl.pending.find? (·.id = id) with
  | none =>
    have hr : r = none := spawning_none hp _
    simp [BrokerLoop.firstFrameReady, hp, hr, trackedIn]
  | some p =>
    have hr : r = (serveSpawnGreeterRequest env c k p.puid s.bl.slot.relayPeerUid).map (p, ·) :=
      spawning_some hp
    have hw : w'.spawnGreeter = r.bind fun r => r.2.parent.toOption := rfl
    rw [firstFrameReady_spawnGreeter hp, hw, hr]
    congr 1
    cases hserve : serveSpawnGreeterRequest env c k p.puid s.bl.slot.relayPeerUid with
    | none => simp [trackedIn]
    | some sp =>
      have hgate : ¬ (p.puid ≠ 0 ∧ p.puid ≠ s.bl.slot.relayPeerUid) := by
        intro hgate
        simp [serveSpawnGreeterRequest, hgate] at hserve
      rw [if_neg hgate]
      simpa using (ofSpawned_tracked p sp w'.registersGreeter).1.symm

/-- Every way a callback can go, as far as the greeters are concerned. -/
theorem greeterStep_cases (idleExit : Nat) (env : Env) (c : Creds CapSet) (s : BrokerProcess)
    (i : LoopInput × Kernel) :
    let r := s.greeterStep idleExit env c i
    (∃ p sp registers, r.2 = GreeterEvent.ofSpawned p sp registers ∧
      serveSpawnGreeterRequest env c i.2 p.puid s.bl.slot.relayPeerUid = some sp ∧
      r.1.bl.greeterPids = s.bl.greeterPids ++ trackedIn r.2) ∨
    (∃ pid, r.2 = [.killedGroup pid, .waited pid] ∧
      s.bl.greeterPids.Perm (r.1.bl.greeterPids ++ [pid])) ∨
    (r.2 = [] ∧ r.1.bl.greeterPids = s.bl.greeterPids) := by
  intro r
  have hsame : ∀ bl : BrokerLoop, bl.greeters = s.bl.greeters →
      bl.greeterPids = s.bl.greeterPids := by
    intro bl h
    rw [BrokerLoop.greeterPids, h, BrokerLoop.greeterPids]
  unfold r BrokerProcess.greeterStep
  obtain ⟨i, k⟩ := i
  by_cases hexit : s.exit.isSome = true
  · rw [if_pos hexit]
    exact .inr (.inr ⟨rfl, rfl⟩)
  rw [if_neg hexit]
  cases i with
  | accept accepted registers =>
    refine .inr (.inr ⟨rfl, hsame _ ?_⟩)
    simp only [BrokerProcess.step, if_neg hexit]
    exact admitOne_greeters s.bl accepted registers
  | firstFrame id recv w =>
    have hpids := firstFrame_pids env c k s id recv w
    dsimp only at hpids ⊢
    simp only [BrokerProcess.step, if_neg hexit]
    cases hr : s.spawning env c k id recv with
    | none =>
      rw [hr] at hpids
      refine .inr (.inr ⟨rfl, ?_⟩)
      simpa [trackedIn] using hpids
    | some r =>
      rw [hr] at hpids
      refine .inl ⟨r.1, r.2, w.registersGreeter, by simp, ?_, by simpa using hpids⟩
      cases hp : s.bl.pending.find? (·.id = id) with
      | none =>
        rw [spawning_none hp] at hr
        cases hr
      | some p =>
        by_cases hrecv : recv = .ok .spawnGreeter
        · subst hrecv
          rw [spawning_some hp] at hr
          obtain ⟨sp, hsp, rfl⟩ := Option.map_eq_some_iff.mp hr
          exact hsp
        · rw [spawning_other hrecv] at hr
          cases hr
  | workerReadable recv kernel now waits =>
    refine .inr (.inr ⟨rfl, hsame _ ?_⟩)
    simp only [BrokerProcess.step, if_neg hexit]
    unfold BrokerLoop.stepWorker
    split
    · rfl
    · exact stepped_greeters ..
  | greeterReadable recv kernel now waits =>
    refine .inr (.inr ⟨rfl, hsame _ ?_⟩)
    simp only [BrokerProcess.step, if_neg hexit]
    unfold BrokerLoop.stepGreeter
    split
    · rfl
    · exact stepped_greeters ..
  | greeterExited pid =>
    dsimp only
    simp only [BrokerProcess.step, if_neg hexit]
    rcases reapGreeter_pids s.bl pid with ⟨hany, hperm⟩ | ⟨hany, heq⟩
    · rw [if_pos hany]
      exact .inr (.inl ⟨pid, rfl, hperm⟩)
    · rw [if_neg (by simp [hany]), heq]
      exact .inr (.inr ⟨rfl, rfl⟩)
  | signal => exact .inr (.inr ⟨rfl, hsame _ (by simp [BrokerProcess.step, hexit])⟩)
  | turn now accepted registers =>
    refine .inr (.inr ⟨rfl, hsame _ ?_⟩)
    simp only [BrokerProcess.step, if_neg hexit]
    exact turn_greeters idleExit s now accepted registers

/-! ## Every run -/

/-- The greeters are no concern of the loop: it goes on as on an input of its own. -/
theorem greeterStep_fst (idleExit : Nat) (env : Env) (c : Creds CapSet) (s : BrokerProcess)
    (i : LoopInput × Kernel) :
    ∃ i', (s.greeterStep idleExit env c i).1 = (s.step idleExit i').1 := by
  unfold BrokerProcess.greeterStep
  split
  · rename_i hexit
    exact ⟨.signal, by simp [BrokerProcess.step, hexit]⟩
  · split
    · exact ⟨_, rfl⟩
    · exact ⟨_, rfl⟩
    · exact ⟨_, rfl⟩

theorem new_tabled (relayPeerUid : UInt32) (start : Instant) :
    Tabled relayPeerUid (BrokerProcess.new relayPeerUid start).bl [] := by
  refine ⟨⟨List.nodup_nil, ?_, by simp, always_nil _⟩, Nat.zero_le _, rfl, ?_⟩
  · intro p hp
    cases hp
  · simp [Quiet, BrokerProcess.new, BrokerLoop.new]

/-- What a request leaves behind, when it was served. -/
theorem ofSpawned_served {env : Env} {c : Creds CapSet} {k : Kernel} {p : Pending}
    {relayPeerUid : UInt32} {sp : Spawned} {registers : Bool}
    (h : serveSpawnGreeterRequest env c k p.puid relayPeerUid = some sp) {puid : UInt32}
    {child : Except Nat (Image × Creds CapSet)}
    (he : GreeterEvent.forked puid child ∈ GreeterEvent.ofSpawned p sp registers) :
    Served env relayPeerUid puid child := by
  unfold GreeterEvent.ofSpawned at he
  rcases List.mem_append.mp he with he | he
  · obtain ⟨child', hchild, heq⟩ := List.mem_map.mp he
    obtain ⟨rfl, rfl⟩ := GreeterEvent.forked.inj heq
    exact serveSpawnGreeterRequest_child h (Option.mem_toList.mp hchild)
  · split at he
    · simp at he
    · cases he

/-- **A greeter is confined.** On every run of the broker, whatever is forked for a greeter was asked
for by root or the relay peer; it either dies before the exec, or it runs the program that the
broker's environment names, under that user, whose privileges it cannot leave again. -/
theorem greeter_confined (idleExit : Nat) (relayPeerUid : UInt32) (start : Instant) (env : Env)
    (c : Creds CapSet) (is : List (LoopInput × Kernel)) :
    ∀ puid child, .forked puid child ∈
        (run (BrokerProcess.greeterStep idleExit env c) (.new relayPeerUid start) is).2 →
      Served env relayPeerUid puid child := by
  -- every state is one of a run of the loop, which keeps the uid of the relay peer
  have h0 : ∃ tr, Tabled relayPeerUid (BrokerProcess.new relayPeerUid start).bl tr :=
    ⟨[], new_tabled relayPeerUid start⟩
  refine (run_invariant_init (fun (s : BrokerProcess) tr => (∃ tr, Tabled relayPeerUid s.bl tr) ∧
    ∀ puid child, GreeterEvent.forked puid child ∈ tr → Served env relayPeerUid puid child)
    ⟨h0, by simp⟩ ?_ is).2
  rintro s tr i ⟨⟨log, htab⟩, hserved⟩
  constructor
  · obtain ⟨i', hi'⟩ := greeterStep_fst idleExit env c s i
    rw [hi']
    exact ⟨_, step_tabled idleExit htab i'⟩
  · intro puid child he
    rcases List.mem_append.mp he with he | he
    · exact hserved puid child he
    · rcases greeterStep_cases idleExit env c s i with
        ⟨p, sp, registers, heq, hserve, -⟩ | ⟨pid, heq, -⟩ | ⟨heq, -⟩
      · rw [heq] at he
        rw [htab.uid] at hserve
        exact ofSpawned_served hserve he
      · rw [heq] at he
        simp at he
      · rw [heq] at he
        cases he

/-- Whether it is a child that was forked for the peer and gets to its program. -/
def GreeterEvent.executes (puid : UInt32) : GreeterEvent → Bool
  | .forked puid' (.ok _) => decide (puid' = puid)
  | _ => false

/-- The environment of a broker with a greeter of uid 990. -/
def bootEnv : Env := fun name =>
  if name = "HALMASUIT_GREETER_UID" then some "990"
  else if name = "HALMASUIT_GREETER_COMMAND" then some "/bin/greeter"
  else none

/-- The compositor, which is still root, asks for the first greeter. -/
def booting : List (LoopInput × Kernel) :=
  [(.accept (.conn (some 0)) true, setuidKernel),
    (.firstFrame 0 (.ok .spawnGreeter) ⟨0, true, none, true, true, none⟩, setuidKernel)]

theorem greeter_confined_boot : ∃ image c,
    .forked 0 (.ok (image, c)) ∈
      (run (BrokerProcess.greeterStep 0 bootEnv root) (.new 991 0) booting).2 ∧
    Served bootEnv 991 0 (.ok (image, c)) := by
  have hexec : (run (BrokerProcess.greeterStep 0 bootEnv root) (.new 991 0) booting).2.any
      (GreeterEvent.executes 0) = true := by decide +kernel
  obtain ⟨e, he, hexec⟩ := List.any_eq_true.mp hexec
  cases e with
  | forked puid child =>
    cases child with
    | error code => cases hexec
    | ok r =>
      obtain rfl : puid = 0 := of_decide_eq_true hexec
      exact ⟨r.1, r.2, he, greeter_confined 0 991 0 bootEnv root booting 0 _ he⟩
  | _ => cases hexec

/-- What is right about an event, after the events before it: only a greeter that is watched is
signalled, and it is waited for next, and at no other time. -/
def ReapOk (pre : List GreeterEvent) : GreeterEvent → Prop
  | .killedGroup pid => (waitedIn pre).count pid < (trackedIn pre).count pid
  | .waited pid => ∃ pre', pre = pre' ++ [.killedGroup pid]
  | _ => True

/-- The greeters that are watched, after the events before. -/
structure Watched (s : BrokerProcess) (tr : List GreeterEvent) : Prop where
  pids : (trackedIn tr).Perm (s.bl.greeterPids ++ waitedIn tr)
  trace : Always ReapOk tr

/-- A greeter that is watched has been waited for less often than it was tracked. -/
theorem Watched.count_lt {s : BrokerProcess} {tr : List GreeterEvent} (h : Watched s tr) {pid : Pid}
    (hpid : pid ∈ s.bl.greeterPids) : (waitedIn tr).count pid < (trackedIn tr).count pid := by
  have hpos : 0 < s.bl.greeterPids.count pid := List.count_pos_iff.mpr hpid
  rw [h.pids.count_eq, List.count_append]
  omega

theorem greeterStep_watched {s : BrokerProcess} {tr : List GreeterEvent} (h : Watched s tr)
    (idleExit : Nat) (env : Env) (c : Creds CapSet) (i : LoopInput × Kernel) :
    Watched (s.greeterStep idleExit env c i).1 (tr ++ (s.greeterStep idleExit env c i).2) := by
  rcases greeterStep_cases idleExit env c s i with
    ⟨p, sp, registers, heq, -, hpids⟩ | ⟨pid, heq, hperm⟩ | ⟨heq, hpids⟩
  · rw [heq] at hpids ⊢
    refine ⟨?_, h.trace.append_of_forall fun e he pre => ?_⟩
    · rw [trackedIn_append, waitedIn_append, (ofSpawned_tracked p sp registers).2, List.append_nil,
        hpids, List.append_assoc]
      refine (h.pids.append_right _).trans ?_
      rw [List.append_assoc]
      exact List.perm_append_comm.append_left _
    · unfold GreeterEvent.ofSpawned at he
      rcases List.mem_append.mp he with he | he
      · obtain ⟨child, -, rfl⟩ := List.mem_map.mp he
        trivial
      · split at he
        · obtain ⟨pid, -, rfl⟩ := List.mem_map.mp he
          trivial
        · cases he
  · rw [heq]
    have hmem : pid ∈ s.bl.greeterPids := hperm.mem_iff.mpr (by simp)
    constructor
    · have htracked : trackedIn (tr ++ [GreeterEvent.killedGroup pid, .waited pid]) =
          trackedIn tr := by
        simp [trackedIn]
      have hwaited : waitedIn (tr ++ [GreeterEvent.killedGroup pid, .waited pid]) =
          waitedIn tr ++ [pid] := by
        simp [waitedIn]
      rw [htracked, hwaited]
      refine h.pids.trans ((hperm.append_right _).trans ?_)
      rw [List.append_assoc]
      exact List.perm_append_comm.append_left _
    · have hkill : Always ReapOk (tr ++ [GreeterEvent.killedGroup pid]) :=
        h.trace.snoc (h.count_lt hmem)
      have hwait : Always ReapOk (tr ++ [GreeterEvent.killedGroup pid] ++ [.waited pid]) :=
        hkill.snoc ⟨tr, rfl⟩
      simpa using hwait
  · rw [heq, List.append_nil]
    exact ⟨hpids ▸ h.pids, h.trace⟩

/-- **Greeters are reaped.** On every run, the greeters that were ever watched are, counted with
their multiplicity, those that are watched now and those that were waited for; only a greeter that is
watched is signalled, with its group, and the wait for it comes right after. -/
theorem greeters_reaped (idleExit : Nat) (relayPeerUid : UInt32) (start : Instant) (env : Env)
    (c : Creds CapSet) (is : List (LoopInput × Kernel)) :
    let r := run (BrokerProcess.greeterStep idleExit env c) (.new relayPeerUid start) is
    (trackedIn r.2).Perm (r.1.bl.greeterPids ++ waitedIn r.2) ∧ Always ReapOk r.2 := by
  intro r
  have h0 : Watched (.new relayPeerUid start) [] := ⟨List.Perm.refl _, always_nil _⟩
  have h := run_invariant_init Watched h0
    (fun s tr i h => greeterStep_watched h idleExit env c i) is
  exact ⟨h.pids, h.trace⟩

end Halmasuit.Broker
