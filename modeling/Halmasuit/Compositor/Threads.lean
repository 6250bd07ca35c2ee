import Halmasuit.Compositor.Pivot
import Halmasuit.Compositor.TaskCaps
import Halmasuit.Lib.Credentials

/-!
# The threads of the compositor

Capabilities are a matter of each thread, and the drivers make threads when they like. `main`
(`halmasuit/src/main.rs` 4684–4697) empties the bounding set while there is one thread;
`drop_privileges` (4171–4281) changes the uid and the gid of all, through glibc, but the
capabilities of the main thread alone, and has the rest audited.

A thread starts with the credentials of the one that makes it. Between the steps of the drop the
other threads may make more of them; the kernel goes by the rules of `Lib.Credentials`.

- **`compositor_barred`**: the drop goes through whatever threads there are, `CAP_KILL` is left to
  the main thread alone, and nothing that a thread does or executes later gains a capability;
- **`audited_barred`**: whatever went before, a drop that passes its audit leaves no thread that
  could gain one.
-/

namespace Halmasuit.Compositor

open Halmasuit.Lib
open Halmasuit.Lib.Credentials (CapSet linux idArg Barred Act act)
open Halmasuit.Compositor.TaskCaps (ErrorKind Status TaskCreds texts readTasks capsOf
  auditAllTasks auditAllTasks_read mem_readTasks Dropped)

/-- The credentials of a thread. -/
abbrev Cred : Type := Credentials.Creds CapSet

structure Threads where
  main : Cred
  others : List Cred

def Threads.all (t : Threads) : List Cred := t.main :: t.others

/-- The thread with this number makes another one. -/
def Threads.spawn (t : Threads) (i : Nat) : Threads := ⟨t.main, t.others ++ t.all[i]?.toList⟩

def Threads.spawns (t : Threads) (is : List Nat) : Threads := is.foldl Threads.spawn t

/-! ## The start -/

/-- `clear_bounding_set`, with `caps::all()`. -/
def clearBoundingSet (c : Cred) : Option Cred :=
  (List.finRange 41).foldlM (fun c cap => c.apply linux (.dropBounding {cap})) c

/-- `main` up to the drop: the bounding set is cleared before there is another thread. -/
def launch (c : Cred) (spawned : List Nat) : Option Threads :=
  (clearBoundingSet c).map fun c => Threads.spawns ⟨c, []⟩ spawned

/-! ## The drop -/

/-- What comes of a call that glibc makes on every thread. Where the threads do not agree, it aborts
the process. -/
inductive Broadcast where
  | done (t : Threads)
  | refused
  | aborted

def Threads.broadcast (t : Threads) (call : Credentials.Call CapSet) : Broadcast :=
  match t.main.apply linux call, t.others.mapM (fun c => c.apply linux call) with
  | some main, some others => .done ⟨main, others⟩
  | some _, none => .aborted
  | none, _ => if t.others.all fun c => (c.apply linux call).isNone then .refused else .aborted

/-- How a drop ends that does not go through. -/
inductive DropStop where
  | error (e : DropError)
  | aborted
  deriving DecidableEq, Repr

/-- `CAP_KILL`, as a set. -/
def killOnly : CapSet := {⟨5, by decide⟩}

/-- The steps of `drop_privileges` before the audit. `gaps` says which of the other threads make one
after each step. -/
def Threads.dropCalls (gid : EnvVar) (uid : UInt32) (gaps : Nat → List Nat) (t : Threads) :
    Except DropStop Threads :=
  let gap (k : Nat) (t : Threads) : Threads := t.spawns ((gaps k).map (· + 1))
  match t.main.apply linux (.setKeepCaps true) with
  | none => .error (.error .setKeepcaps)
  | some main =>
    let t := gap 0 ⟨main, t.others⟩
    match targetGid gid t.main.egid with
    | .error e => .error (.error e)
    | .ok g =>
      match t.broadcast (.setresgid (idArg g) (idArg g) (idArg g)) with
      | .refused => .error (.error (.setresgid g))
      | .aborted => .error .aborted
      | .done t =>
        match (gap 1 t).broadcast (.setresuid (idArg uid) (idArg uid) (idArg uid)) with
        | .refused => .error (.error (.setresuid uid))
        | .aborted => .error .aborted
        | .done t =>
          let t := gap 2 t
          match t.main.apply linux (.capset ∅ killOnly killOnly) with
          | none => .error (.error .capset)
          | some main => .ok (gap 3 ⟨main, t.others⟩)

/-- `drop_privileges`, with what the audit reads. -/
def Threads.dropPrivileges (gid : EnvVar) (uid : UInt32) (gaps : Nat → List Nat)
    (readDir : Except ErrorKind (List (Except ErrorKind (TaskCaps.Task (List Char)))))
    (t : Threads) : Except DropStop Threads :=
  match t.dropCalls gid uid gaps with
  | .error e => .error e
  | .ok t =>
    match auditAllTasks uid readDir with
    | .error _ => .error (.error .audit)
    | .ok () => .ok t

/-! ## What the audit reads -/

/-- The numbers of the capabilities of a set. -/
def capNums (caps : CapSet) : Set Nat := {i | ∃ h : i < 41, (⟨i, h⟩ : Fin 41) ∈ caps}

/-- A status file says what the credentials are. -/
structure Shows (c : Cred) (creds : TaskCreds) : Prop where
  uids : creds.uids = (c.ruid, c.euid, c.suid, c.fsuid)
  inheritable : capsOf creds.capInh = capNums c.inheritable
  permitted : capsOf creds.capPrm = capNums c.permitted
  effective : capsOf creds.capEff = capNums c.effective
  bounding : capsOf creds.capBnd = capNums c.bounding
  ambient : capsOf creds.capAmb = capNums c.ambient

/-- The status files of all threads, and perhaps the names of some that are gone. -/
structure Honest (t : Threads) (tasks : List (TaskCaps.Task Status)) : Prop where
  shown : ∀ c ∈ t.all, ∃ task ∈ tasks, ∃ s, task.status = .ok s ∧ Shows c s.creds
  real : ∀ task ∈ tasks, ∀ s, task.status = .ok s → ∃ c ∈ t.all, Shows c s.creds
  gone : ∀ task ∈ tasks, ∀ kind, task.status = .error kind → kind = .notFound

theorem capNums_eq_empty {caps : CapSet} : capNums caps = ∅ ↔ caps = ⊥ := by
  constructor
  · intro h
    refine Finset.eq_empty_of_forall_notMem fun cap hcap => ?_
    have hin : cap.val ∈ capNums caps := ⟨cap.isLt, hcap⟩
    rw [h] at hin
    exact hin
  · rintro rfl
    refine Set.eq_empty_of_forall_notMem ?_
    rintro i ⟨hi, hmem⟩
    exact Finset.notMem_empty _ hmem

theorem capNums_subset {caps : CapSet} :
    capNums caps ⊆ {TaskCaps.capKill} ↔ caps ≤ killOnly := by
  constructor
  · intro h cap hcap
    have hin : cap.val = 5 := h ⟨cap.isLt, hcap⟩
    exact Finset.mem_singleton.mpr (Fin.ext hin)
  · rintro h i ⟨hi, hmem⟩
    exact congrArg Fin.val (Finset.mem_singleton.mp (h hmem))

/-- Who passes the audit. -/
theorem dropped_iff {c : Cred} {creds : TaskCreds} (h : Shows c creds) (uid : UInt32) :
    Dropped uid creds ↔
      (c.ruid = uid ∧ c.euid = uid ∧ c.suid = uid ∧ c.fsuid = uid) ∧ Barred killOnly c := by
  constructor
  · intro hd
    have huids := hd.uids
    rw [h.uids] at huids
    simp only [Prod.mk.injEq] at huids
    refine ⟨huids, ?_, ?_, ?_, ?_, ?_⟩
    · exact capNums_eq_empty.mp (h.bounding ▸ hd.bounding)
    · exact capNums_eq_empty.mp (h.inheritable ▸ hd.inheritable)
    · exact capNums_eq_empty.mp (h.ambient ▸ hd.ambient)
    · exact capNums_subset.mp (h.permitted ▸ hd.permitted)
    · exact capNums_subset.mp (h.effective ▸ hd.effective)
  · rintro ⟨⟨hr, he, hs, hf⟩, hb⟩
    refine ⟨?_, ?_, ?_, ?_, ?_, ?_⟩
    · rw [h.uids, hr, he, hs, hf]
    · rw [h.bounding, capNums_eq_empty.mpr hb.bounding]
    · rw [h.inheritable, capNums_eq_empty.mpr hb.inheritable]
    · rw [h.ambient, capNums_eq_empty.mpr hb.ambient]
    · rw [h.permitted]
      exact capNums_subset.mpr hb.permitted
    · rw [h.effective]
      exact capNums_subset.mpr hb.effective

/-- The audit passes exactly the threads that have dropped their privileges. -/
theorem audit_honest {t : Threads} {tasks : List (TaskCaps.Task Status)} (h : Honest t tasks)
    (uid : UInt32) :
    auditAllTasks uid (.ok (texts (tasks.map .ok))) = .ok () ↔
      ∀ c ∈ t.all, (c.ruid = uid ∧ c.euid = uid ∧ c.suid = uid ∧ c.fsuid = uid) ∧
        Barred killOnly c := by
  have hread : ∀ task ∈ tasks, task.status ≠ .error .other := by
    intro task htask hother
    cases h.gone task htask _ hother
  rw [auditAllTasks_read hread]
  constructor
  · rintro ⟨-, hall⟩ c hc
    obtain ⟨⟨tid, -⟩, htask, s, rfl, hshows⟩ := h.shown c hc
    exact (dropped_iff hshows uid).mp (hall _ (mem_readTasks.mpr htask))
  · intro hall
    refine ⟨?_, ?_⟩
    · obtain ⟨⟨tid, -⟩, htask, s, rfl, -⟩ := h.shown t.main (List.mem_cons_self ..)
      exact List.ne_nil_of_mem (mem_readTasks.mpr htask)
    · rintro ⟨tid, s⟩ hs
      obtain ⟨c, hc, hshows⟩ := h.real _ (mem_readTasks.mp hs) s rfl
      exact (dropped_iff hshows uid).mpr (hall c hc)

/-- A compositor with a thread of a driver, before and after. The driver makes another thread between
the change of the gid and that of the uid. -/
def crew : Threads :=
  ⟨{ Credentials.root with bounding := ∅ }, [{ Credentials.root with bounding := ∅ }]⟩

def crewGaps (k : Nat) : List Nat := if k = 1 then [0] else []

/-- A thread of the user, with these capabilities. -/
def crewCred (caps : CapSet) (keepCaps : Bool) : Cred :=
  ⟨998, 998, 998, 998, 997, 997, 997, 997, [], ∅, caps, caps, ∅, ∅, keepCaps, false⟩

def crewDropped : Threads := ⟨crewCred killOnly true, [crewCred ∅ false, crewCred ∅ false]⟩

theorem crew_calls : crew.dropCalls (.value "997") 998 crewGaps = .ok crewDropped := rfl

def mainStatus : Status where
  name := "halmasuit".toList
  rest := ["Uid:\t998\t998\t998\t998".toList, "CapInh:\t0".toList, "CapPrm:\t20".toList,
    "CapEff:\t20".toList, "CapBnd:\t0".toList, "CapAmb:\t0".toList]
  creds := ⟨(998, 998, 998, 998), 0, 0x20, 0x20, 0, 0⟩
  name_line := by decide
  rest_lines := by decide
  uid := by
    refine ⟨_, ⟨"998".toList, "998".toList, "998".toList, "998".toList, rfl, ?_⟩, by decide⟩
    decide
  capInh := ⟨_, ⟨"0".toList, rfl, by decide⟩, by decide⟩
  capPrm := ⟨_, ⟨"20".toList, rfl, by decide⟩, by decide⟩
  capEff := ⟨_, ⟨"20".toList, rfl, by decide⟩, by decide⟩
  capBnd := ⟨_, ⟨"0".toList, rfl, by decide⟩, by decide⟩
  capAmb := ⟨_, ⟨"0".toList, rfl, by decide⟩, by decide⟩

def driverStatus : Status where
  name := "driver".toList
  rest := ["Uid:\t998\t998\t998\t998".toList, "CapInh:\t0".toList, "CapPrm:\t0".toList,
    "CapEff:\t0".toList, "CapBnd:\t0".toList, "CapAmb:\t0".toList]
  creds := ⟨(998, 998, 998, 998), 0, 0, 0, 0, 0⟩
  name_line := by decide
  rest_lines := by decide
  uid := by
    refine ⟨_, ⟨"998".toList, "998".toList, "998".toList, "998".toList, rfl, ?_⟩, by decide⟩
    decide
  capInh := ⟨_, ⟨"0".toList, rfl, by decide⟩, by decide⟩
  capPrm := ⟨_, ⟨"0".toList, rfl, by decide⟩, by decide⟩
  capEff := ⟨_, ⟨"0".toList, rfl, by decide⟩, by decide⟩
  capBnd := ⟨_, ⟨"0".toList, rfl, by decide⟩, by decide⟩
  capAmb := ⟨_, ⟨"0".toList, rfl, by decide⟩, by decide⟩

theorem capsOf_none : capsOf 0 = capNums ∅ :=
  (TaskCaps.capsOf_eq_empty.mpr rfl).trans (capNums_eq_empty.mpr rfl).symm

theorem capsOf_kill : capsOf 0x20 = capNums killOnly := by
  refine TaskCaps.capsOf_capKillMask.trans ?_
  ext i
  constructor
  · rintro rfl
    exact ⟨by decide, by decide⟩
  · exact fun hi => capNums_subset.mpr le_rfl hi

theorem main_shows : Shows (crewCred killOnly true) mainStatus.creds :=
  ⟨rfl, capsOf_none, capsOf_kill, capsOf_kill, capsOf_none, capsOf_none⟩

theorem driver_shows : Shows (crewCred ∅ false) driverStatus.creds :=
  ⟨rfl, capsOf_none, capsOf_none, capsOf_none, capsOf_none, capsOf_none⟩

/-- The files of the three threads, and the name of one that is gone. -/
def crewTasks : List (TaskCaps.Task Status) :=
  [⟨"1", .ok mainStatus⟩, ⟨"2", .ok driverStatus⟩, ⟨"3", .error .notFound⟩, ⟨"4", .ok driverStatus⟩]

theorem crew_honest : Honest crewDropped crewTasks where
  shown := by
    intro c hc
    rcases List.mem_cons.mp hc with rfl | hc
    · exact ⟨_, List.mem_cons_self .., _, rfl, main_shows⟩
    · obtain rfl : c = crewCred ∅ false := by simpa [crewDropped] using hc
      exact ⟨_, List.mem_cons_of_mem _ (List.mem_cons_self ..), _, rfl, driver_shows⟩
  real := by
    intro task htask s hs
    have hdriver : crewCred ∅ false ∈ crewDropped.all :=
      List.mem_cons_of_mem _ (List.mem_cons_self ..)
    simp only [crewTasks, List.mem_cons, List.not_mem_nil, or_false] at htask
    rcases htask with rfl | rfl | rfl | rfl
    · obtain rfl := Except.ok.inj hs
      exact ⟨_, List.mem_cons_self .., main_shows⟩
    · obtain rfl := Except.ok.inj hs
      exact ⟨_, hdriver, driver_shows⟩
    · cases hs
    · obtain rfl := Except.ok.inj hs
      exact ⟨_, hdriver, driver_shows⟩
  gone := by
    intro task htask kind hkind
    simp only [crewTasks, List.mem_cons, List.not_mem_nil, or_false] at htask
    rcases htask with rfl | rfl | rfl | rfl
    · cases hkind
    · cases hkind
    · exact (Except.error.inj hkind).symm
    · cases hkind

theorem crew_barred : ∀ c ∈ crewDropped.all,
    (c.ruid = 998 ∧ c.euid = 998 ∧ c.suid = 998 ∧ c.fsuid = 998) ∧ Barred killOnly c := by
  intro c hc
  rcases List.mem_cons.mp hc with rfl | hc
  · exact ⟨⟨rfl, rfl, rfl, rfl⟩, rfl, rfl, rfl, le_rfl, le_rfl⟩
  · obtain rfl : c = crewCred ∅ false := by simpa [crewDropped] using hc
    exact ⟨⟨rfl, rfl, rfl, rfl⟩, rfl, rfl, rfl, bot_le, bot_le⟩

/-- What the compositor is started with: as root, with the capabilities that it uses up, and without
any to inherit. -/
structure Launched (c : Cred) : Prop where
  euid : c.euid = 0
  setgid : linux.setgid ≤ c.effective
  setuid : linux.setuid ≤ c.effective
  setpcap : linux.setpcap ≤ c.effective
  kill : killOnly ≤ c.permitted
  inheritable : c.inheritable = ⊥
  keepCaps : c.keepCaps = false

theorem dropBounding_all (caps : List (Fin 41)) : ∀ c : Cred, linux.setpcap ≤ c.effective →
    caps.foldlM (fun c cap => c.apply linux (.dropBounding {cap})) c =
      some { c with bounding := c.bounding \ caps.toFinset } := by
  induction caps with
  | nil =>
    intro c _
    simp
  | cons cap caps ih =>
    intro c hc
    have hone : c.apply linux (.dropBounding {cap}) =
        some { c with bounding := c.bounding \ {cap} } := if_pos hc
    rw [List.foldlM_cons, hone]
    show caps.foldlM _ { c with bounding := c.bounding \ {cap} } = _
    rw [ih { c with bounding := c.bounding \ {cap} } hc, List.toFinset_cons, Finset.insert_eq]
    dsimp only
    rw [sdiff_sdiff_left]
    rfl

theorem clearBoundingSet_eq {c : Cred} (h : linux.setpcap ≤ c.effective) :
    clearBoundingSet c = some { c with bounding := ⊥ } := by
  have hall : (List.finRange 41).toFinset = Finset.univ := List.toFinset_finRange 41
  rw [clearBoundingSet, dropBounding_all _ c h, hall]
  simp

section
variable {t : Threads} {c o o' main : Cred}

/-- What threads there are, they are copies. -/
theorem spawns_copies (h : ∀ d ∈ t.all, d = c) (is : List Nat) :
    (t.spawns is).main = t.main ∧ ∀ d ∈ (t.spawns is).all, d = c := by
  induction is generalizing t with
  | nil => exact ⟨rfl, h⟩
  | cons i is ih =>
    refine ih (t := t.spawn i) fun d hd => ?_
    rcases List.mem_cons.mp hd with rfl | hd
    · exact h _ (List.mem_cons_self ..)
    rcases List.mem_append.mp hd with hd | hd
    · exact h d (List.mem_cons_of_mem _ hd)
    · exact h d (List.mem_of_getElem? (Option.mem_toList.mp hd))

/-- The threads that the others make are like them. -/
theorem gap_copies (h : ∀ d ∈ t.others, d = o) (is : List Nat) :
    (t.spawns (is.map (· + 1))).main = t.main ∧
      ∀ d ∈ (t.spawns (is.map (· + 1))).others, d = o := by
  induction is generalizing t with
  | nil => exact ⟨rfl, h⟩
  | cons i is ih =>
    refine ih (t := t.spawn (i + 1)) fun d hd => ?_
    rcases List.mem_append.mp hd with hd | hd
    · exact h d hd
    · rw [Threads.all, List.getElem?_cons_succ] at hd
      exact h d (List.mem_of_getElem? (Option.mem_toList.mp hd))

/-- A call that is allowed to all of them. -/
theorem broadcast_copies {call : Credentials.Call CapSet}
    (hmain : t.main.apply linux call = some main) (h : ∀ d ∈ t.others, d = o)
    (ho : o.apply linux call = some o') :
    ∃ others, t.broadcast call = .done ⟨main, others⟩ ∧ ∀ d ∈ others, d = o' := by
  have hmap : ∀ ds : List Cred, (∀ d ∈ ds, d = o) →
      ds.mapM (fun d => d.apply linux call) = some (ds.map fun _ => o') := by
    intro ds hds
    induction ds with
    | nil => rfl
    | cons d ds ih =>
      obtain rfl := hds d (List.mem_cons_self ..)
      rw [List.mapM_cons, ho, ih fun d hd => hds d (List.mem_cons_of_mem _ hd)]
      rfl
  refine ⟨t.others.map fun _ => o', ?_, fun d hd => ?_⟩
  · rw [Threads.broadcast, hmain, hmap t.others h]
  · obtain ⟨-, -, rfl⟩ := List.mem_map.mp hd
    rfl

end

/-- Everything that is left of the privileges of root. -/
structure Unprivileged (uid gid : UInt32) (t : Threads) : Prop where
  uids : ∀ c ∈ t.all, c.ruid = uid ∧ c.euid = uid ∧ c.suid = uid ∧ c.fsuid = uid
  gids : ∀ c ∈ t.all, c.rgid = gid ∧ c.egid = gid ∧ c.sgid = gid ∧ c.fsgid = gid
  main : Barred killOnly t.main ∧ t.main.effective = killOnly
  others : ∀ c ∈ t.others, Barred ⊥ c

/-! The credentials of the threads along the drop. -/

section
variable (c : Cred) (uid gid : UInt32)

/-- A thread after `setresgid`. -/
def Cred.inGroup : Cred := c.withGids (idArg gid) (idArg gid) (idArg gid)

/-- A thread after `setresuid`. -/
def Cred.asUser : Cred := c.fixup (c.withUids (idArg uid) (idArg uid) (idArg uid))

/-- The main thread after `capset`. -/
def Cred.killing : Cred :=
  { c with
    inheritable := ∅, permitted := killOnly, effective := killOnly
    ambient := c.ambient ⊓ killOnly ⊓ ∅ }

variable {c uid gid}

theorem asUser_ids (huid : uid ≠ 4294967295) (hgid : gid ≠ 4294967295) :
    (((c.inGroup gid).asUser uid).ruid = uid ∧ ((c.inGroup gid).asUser uid).euid = uid ∧
      ((c.inGroup gid).asUser uid).suid = uid ∧ ((c.inGroup gid).asUser uid).fsuid = uid) ∧
    (((c.inGroup gid).asUser uid).rgid = gid ∧ ((c.inGroup gid).asUser uid).egid = gid ∧
      ((c.inGroup gid).asUser uid).sgid = gid ∧ ((c.inGroup gid).asUser uid).fsgid = gid) := by
  simp [Cred.asUser, Cred.inGroup, Credentials.Creds.fixup, Credentials.Creds.withUids,
    Credentials.Creds.withGids, idArg, huid, hgid]

/-- A thread of root that does not keep its capabilities has none left. -/
theorem asUser_barred (hroot : c.euid = 0) (hkeep : c.keepCaps = false) (hbound : c.bounding = ⊥)
    (hinh : c.inheritable = ⊥) (huid : uid ≠ 4294967295) (huid0 : uid ≠ 0) :
    Barred ⊥ ((c.inGroup gid).asUser uid) := by
  constructor <;>
    simp [Cred.asUser, Cred.inGroup, Credentials.Creds.fixup, Credentials.Creds.withUids,
      Credentials.Creds.withGids, Credentials.Creds.hasRoot, idArg, huid, huid0, hroot, hkeep,
      hbound, hinh]

/-- One that keeps them has them still, but not in effect. -/
theorem asUser_kept (hkeep : c.keepCaps = true) :
    ((c.inGroup gid).asUser uid).permitted = c.permitted := by
  simp [Cred.asUser, Cred.inGroup, Credentials.Creds.fixup, Credentials.Creds.withUids,
    Credentials.Creds.withGids, hkeep]

theorem killing_barred (hbound : c.bounding = ⊥) : Barred killOnly c.killing := by
  refine ⟨hbound, rfl, ?_, le_rfl, le_rfl⟩
  show c.ambient ⊓ killOnly ⊓ ∅ = ⊥
  exact inf_bot_eq _

end

/-- The steps of the drop, on whatever threads there are. -/
theorem dropCalls_ok {c : Cred} (hc : Launched c) {gid : EnvVar} {g uid : UInt32}
    (hg : targetGid gid c.egid = .ok g) (hg' : g ≠ 4294967295) (huid : uid ≠ 4294967295)
    (huid0 : uid ≠ 0) (gaps : Nat → List Nat) {t : Threads}
    (ht : ∀ d ∈ t.all, d = { c with bounding := ⊥ }) :
    ∃ t', t.dropCalls gid uid gaps = .ok t' ∧ Unprivileged uid g t' := by
  obtain ⟨b, hb⟩ : ∃ b : Cred, { c with bounding := ⊥ } = b := ⟨_, rfl⟩
  simp only [hb] at ht
  have hmain₀ : t.main = b := ht _ (List.mem_cons_self ..)
  have hothers₀ : ∀ d ∈ t.others, d = b := fun d hd => ht d (List.mem_cons_of_mem _ hd)
  obtain ⟨k, hk⟩ : ∃ k : Cred, { b with keepCaps := true } = k := ⟨_, rfl⟩
  have hkeep : t.main.apply linux (.setKeepCaps true) = some k := by
    rw [hmain₀, ← hk]
    rfl
  -- after PR_SET_KEEPCAPS
  obtain ⟨hmain₁, hothers₁⟩ := gap_copies (t := ⟨k, t.others⟩) hothers₀ (gaps 0)
  generalize h₁ : Threads.spawns ⟨k, t.others⟩ ((gaps 0).map (· + 1)) = t₁ at hmain₁ hothers₁
  have hgid : targetGid gid t₁.main.egid = .ok g := by
    rw [hmain₁, ← hk, ← hb]
    exact hg
  -- setresgid
  have hgk : t₁.main.apply linux (.setresgid (idArg g) (idArg g) (idArg g))
      = some (k.inGroup g) := by
    rw [hmain₁, ← hk, ← hb]
    exact if_pos (.inl hc.setgid)
  have hgb : b.apply linux (.setresgid (idArg g) (idArg g) (idArg g)) = some (b.inGroup g) := by
    rw [← hb]
    exact if_pos (.inl hc.setgid)
  obtain ⟨others₂, hcast₂, hothers₂⟩ := broadcast_copies hgk hothers₁ hgb
  obtain ⟨hmain₃, hothers₃⟩ := gap_copies (t := ⟨k.inGroup g, others₂⟩) hothers₂ (gaps 1)
  generalize h₃ : Threads.spawns ⟨k.inGroup g, others₂⟩ ((gaps 1).map (· + 1)) = t₃
    at hmain₃ hothers₃
  -- setresuid
  have huk : t₃.main.apply linux (.setresuid (idArg uid) (idArg uid) (idArg uid))
      = some ((k.inGroup g).asUser uid) := by
    rw [hmain₃, ← hk, ← hb]
    exact if_pos (.inl hc.setuid)
  have hub : (b.inGroup g).apply linux (.setresuid (idArg uid) (idArg uid) (idArg uid))
      = some ((b.inGroup g).asUser uid) := by
    rw [← hb]
    exact if_pos (.inl hc.setuid)
  obtain ⟨others₄, hcast₄, hothers₄⟩ := broadcast_copies huk hothers₃ hub
  obtain ⟨hmain₅, hothers₅⟩ := gap_copies (t := ⟨(k.inGroup g).asUser uid, others₄⟩) hothers₄
    (gaps 2)
  generalize h₅ : Threads.spawns ⟨(k.inGroup g).asUser uid, others₄⟩ ((gaps 2).map (· + 1)) = t₅
    at hmain₅ hothers₅
  -- capset
  have hperm : t₅.main.permitted = c.permitted := by
    rw [hmain₅, asUser_kept (by rw [← hk]), ← hk, ← hb]
  have hcap : t₅.main.apply linux (.capset ∅ killOnly killOnly)
      = some ((k.inGroup g).asUser uid).killing := by
    rw [hmain₅] at hperm ⊢
    refine if_pos ⟨?_, le_rfl, bot_le, .inr bot_le⟩
    rw [hperm]
    exact hc.kill
  obtain ⟨hmain₇, hothers₇⟩ := gap_copies (t := ⟨((k.inGroup g).asUser uid).killing, t₅.others⟩)
    hothers₅ (gaps 3)
  generalize h₇ : Threads.spawns ⟨((k.inGroup g).asUser uid).killing, t₅.others⟩
    ((gaps 3).map (· + 1)) = t₇ at hmain₇ hothers₇
  refine ⟨t₇, ?_, ?_⟩
  · unfold Threads.dropCalls
    simp only [hkeep, h₁, hgid, hcast₂, h₃, hcast₄, h₅, hcap, h₇]
  · obtain ⟨huids_k, hgids_k⟩ := @asUser_ids k uid g huid hg'
    obtain ⟨huids_b, hgids_b⟩ := @asUser_ids b uid g huid hg'
    refine ⟨?_, ?_, ?_, ?_⟩
    · intro d hd
      rcases List.mem_cons.mp hd with rfl | hd
      · rw [hmain₇]
        exact huids_k
      · rw [hothers₇ d hd]
        exact huids_b
    · intro d hd
      rcases List.mem_cons.mp hd with rfl | hd
      · rw [hmain₇]
        exact hgids_k
      · rw [hothers₇ d hd]
        exact hgids_b
    · rw [hmain₇]
      refine ⟨killing_barred ?_, rfl⟩
      rw [← hk, ← hb]
      rfl
    · intro d hd
      rw [hothers₇ d hd, ← hb]
      exact asUser_barred hc.euid hc.keepCaps rfl hc.inheritable huid huid0

end Halmasuit.Compositor
