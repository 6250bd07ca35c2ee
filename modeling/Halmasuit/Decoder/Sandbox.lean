import Halmasuit.Lib.Seccomp
import Halmasuit.Lib.Text

/-!
# The decoder's sandbox

`halmasuit-decoder/src/sandbox.rs`: before it says `Ready`, the decoder forbids itself new
privileges, closes what it inherited, leaves the namespaces of the user, the network and the mounts
where it may, bounds its resources and installs the seccomp filter, in this order. Any failure but
that of the user namespace ends it (`main.rs` 85–109).

What the kernel answers is in `SandboxKernel`; errors are numbers. The rules of the filter are those
that `seccompiler` compiles.

- `enterSandbox_ok`: what holds when `enter_sandbox` returns;
- **`decoder_confined`**: what the decoder can do from then on, whatever code it runs.
-/

namespace Halmasuit.Decoder

open Halmasuit.Lib
open Halmasuit.Lib.Seccomp (Fds Origin Syscall Answer Condition Filter Jail Jailed kind)
open Halmasuit.Lib.Text (digits fromStrRadix fromStrRadix_numeral IsNumeral)

/-! ## The process -/

/-- What the sandbox is about. -/
structure Confinement where
  uid : UInt32
  gid : UInt32
  fds : Fds
  noNewPrivs : Bool
  userNs : Bool
  netNs : Bool
  mountNs : Bool
  /-- The files written, with their texts. -/
  written : List (String × String)
  /-- The limits set, soft and hard alike. -/
  rlimits : List (String × Nat)
  filter : Option Filter

/-- A process as it starts. -/
def Confinement.start (uid gid : UInt32) (fds : Fds) : Confinement :=
  ⟨uid, gid, fds, false, false, false, false, [], [], none⟩

/-- `/proc/self/fd`, opened: its descriptor, and the names in it. `none` is for an entry that cannot
be read, or whose name is not UTF-8. -/
structure ProcFd where
  dirfd : Nat
  names : List (Option String)

/-- The directory has the number of every descriptor. -/
structure ProcFd.Lists (dir : ProcFd) (fds : Fds) : Prop where
  free : fds dir.dirfd = none
  lists : ∀ fd, fds fd ≠ none →
    fd < 2147483648 ∧ ∃ name, some name ∈ dir.names ∧ IsNumeral 10 name.toList fd

/-- What the kernel answers to the calls of `enter_sandbox`. -/
structure SandboxKernel where
  setNoNewPrivs : Except Nat Unit
  procFd : Except Nat ProcFd
  unshare : String → Except Nat Unit
  write : String → Except Nat Unit
  setrlimit : String → Except Nat Unit
  applyFilter : Except Nat Unit

/-- `SandboxError`. The filter of this module compiles. -/
inductive SandboxError where
  | noNewPrivs (errno : Nat)
  | openProcFd (errno : Nat)
  | unshare (flag : String) (errno : Nat)
  | writeIdMap (file : String) (errno : Nat)
  | rlimit (resource : String) (errno : Nat)
  | seccompLoad (errno : Nat)
  deriving DecidableEq, Repr

/-! ## The steps -/

/-- `set_no_new_privs`. -/
def setNoNewPrivs (k : SandboxKernel) (s : Confinement) : Except SandboxError Confinement :=
  match k.setNoNewPrivs with
  | .error e => .error (.noNewPrivs e)
  | .ok () => .ok { s with noNewPrivs := true }

/-- `str::parse::<RawFd>`. -/
def parseRawFd (name : String) : Option Int :=
  match name.toList with
  | '-' :: ds => if ds = [] then none else (digits 10 2147483649 0 ds).map fun n => -(n : Int)
  | ds => (fromStrRadix 10 2147483648 ds).map fun n => (n : Int)

/-- `libc::close`. A number that is no descriptor's is refused. -/
def closeRaw (fds : Fds) (fd : Int) : Fds := if 0 ≤ fd then fds.erase fd.toNat else fds

/-- `O_RDONLY | O_CLOEXEC`. -/
def procFdFlags : UInt32 := 0x80000

/-- `close_fds_except`. -/
def closeFdsExcept (keepFds : List Int) (k : SandboxKernel) (s : Confinement) :
    Except SandboxError Confinement :=
  match k.procFd with
  | .error e => .error (.openProcFd e)
  | .ok dir =>
    let opened := s.fds.put (some dir.dirfd) (some (.opened procFdFlags))
    let toClose := (dir.names.filterMap fun name => name.bind parseRawFd).filter fun fd =>
      !(keepFds.contains fd || fd == (dir.dirfd : Int))
    let dropped := opened.erase dir.dirfd
    .ok { s with fds := toClose.foldl closeRaw dropped }

/-- `File::create` and `write_all`. -/
def writeFile (k : SandboxKernel) (s : Confinement) (file : String × String) :
    Except SandboxError Confinement :=
  match k.write file.1 with
  | .error e => .error (.writeIdMap file.1 e)
  | .ok () => .ok { s with written := s.written ++ [file] }

/-- The files of `write_id_map_files`. -/
def idMapFiles (outerUid outerGid : UInt32) : List (String × String) :=
  [("/proc/self/setgroups", "deny"),
    ("/proc/self/uid_map", s!"{outerUid} {outerUid} 1\n"),
    ("/proc/self/gid_map", s!"{outerGid} {outerGid} 1\n")]

/-- `unshare_namespaces`. -/
def unshareNamespaces (k : SandboxKernel) (s : Confinement) : Except SandboxError Confinement :=
  match k.unshare "CLONE_NEWUSER" with
  | .error _ => .ok s
  | .ok () =>
    match (idMapFiles s.uid s.gid).foldlM (writeFile k) { s with userNs := true } with
    | .error e => .error e
    | .ok s =>
      match k.unshare "CLONE_NEWNET" with
      | .error e => .error (.unshare "CLONE_NEWNET" e)
      | .ok () =>
        match k.unshare "CLONE_NEWNS" with
        | .error e => .error (.unshare "CLONE_NEWNS" e)
        | .ok () => .ok { s with netNs := true, mountNs := true }

/-- The limits of `set_rlimits`. -/
def rlimitPairs : List (String × Nat) :=
  [("RLIMIT_NPROC", 0), ("RLIMIT_AS", 512 * 1024 * 1024), ("RLIMIT_NOFILE", 32),
    ("RLIMIT_CORE", 0)]

def setRlimit (k : SandboxKernel) (s : Confinement) (limit : String × Nat) :
    Except SandboxError Confinement :=
  match k.setrlimit limit.1 with
  | .error e => .error (.rlimit limit.1 e)
  | .ok () => .ok { s with rlimits := s.rlimits ++ [limit] }

/-- `set_rlimits`. -/
def setRlimits (k : SandboxKernel) (s : Confinement) : Except SandboxError Confinement :=
  rlimitPairs.foldlM (setRlimit k) s

/-! ## The filter -/

/-- `ALLOWED_SYSCALLS`. -/
def allowedSyscalls : List (Nat × String) :=
  [(0, "read"), (1, "write"), (9, "mmap"), (11, "munmap"), (25, "mremap"), (202, "futex"),
    (228, "clock_gettime"), (60, "exit"), (231, "exit_group"), (15, "rt_sigreturn"), (12, "brk"),
    (219, "restart_syscall"), (28, "madvise"), (46, "sendmsg"), (47, "recvmsg"), (44, "sendto"),
    (45, "recvfrom"), (271, "ppoll"), (7, "poll"), (35, "nanosleep"), (230, "clock_nanosleep"),
    (10, "mprotect"), (13, "rt_sigaction"), (14, "rt_sigprocmask"), (131, "sigaltstack"),
    (39, "getpid"), (3, "close"), (318, "getrandom"), (20, "writev"), (19, "readv"),
    (72, "fcntl"), (32, "dup"), (257, "openat"), (262, "newfstatat"), (5, "fstat"),
    (332, "statx"), (16, "ioctl"), (17, "pread64"), (8, "lseek"), (273, "set_robust_list"),
    (334, "rseq"), (324, "membarrier")]

/-- `BTreeMap::insert`. -/
def insertRules (rules : Nat → Option (List (List Condition))) (nr : Nat)
    (rule : List (List Condition)) : Nat → Option (List (List Condition)) :=
  fun n => if n = nr then some rule else rules n

/-- `openat_readonly`, with `O_ACCMODE` and `O_CREAT | O_TMPFILE`. -/
def openatReadonly : List Condition := [⟨Seccomp.flagsArg, 0x3, 0⟩, ⟨Seccomp.flagsArg, 0x410040, 0⟩]

/-- The filter of `install_seccomp_filter`, for `AUDIT_ARCH_X86_64`. -/
def decoderFilter : Filter where
  arch := 0xC000003E
  rules := insertRules
    (allowedSyscalls.foldl (fun rules call => insertRules rules call.1 []) fun _ => none)
    257 [openatReadonly]

/-- `install_seccomp_filter`. -/
def installSeccompFilter (k : SandboxKernel) (s : Confinement) :
    Except SandboxError Confinement :=
  match k.applyFilter with
  | .error e => .error (.seccompLoad e)
  | .ok () => .ok { s with filter := some decoderFilter }

/-- `enter_sandbox`. -/
def enterSandbox (keepFds : List Int) (k : SandboxKernel) (s : Confinement) :
    Except SandboxError Confinement := do
  let s ← setNoNewPrivs k s
  let s ← closeFdsExcept keepFds k s
  let s ← unshareNamespaces k s
  let s ← setRlimits k s
  installSeccompFilter k s

/-! ## What the steps leave -/

theorem andThen_ok {ε α β : Type} {x : Except ε α} {f : α → Except ε β} {b : β}
    (h : x >>= f = .ok b) : ∃ a, x = .ok a ∧ f a = .ok b := by
  cases x with
  | error e => cases h
  | ok a => exact ⟨a, rfl, h⟩

theorem parseRawFd_numeral {name : String} {fd : Nat} (h : IsNumeral 10 name.toList fd)
    (hfd : fd < 2147483648) : parseRawFd name = some (fd : Int) := by
  have hread := fromStrRadix_numeral (by decide) hfd h
  unfold parseRawFd
  split
  · rename_i ds hds
    -- a numeral does not begin with a sign
    rw [hds] at h
    obtain ⟨d, hd, -⟩ := Option.bind_eq_some_iff.mp h.2
    exact absurd (Text.range_of_toDigit hd).1 (by decide)
  · rw [hread]
    rfl

theorem foldl_closeRaw (toClose : List Int) (n : Nat) : ∀ fds : Fds,
    toClose.foldl closeRaw fds n = if (n : Int) ∈ toClose then none else fds n := by
  have hone : ∀ (fds : Fds) (fd : Int),
      closeRaw fds fd n = if (n : Int) = fd then none else fds n := by
    intro fds fd
    unfold closeRaw
    by_cases hpos : 0 ≤ fd
    · obtain ⟨m, rfl⟩ := Int.eq_ofNat_of_zero_le hpos
      rw [if_pos hpos]
      simp only [Fds.erase, Int.toNat_natCast, Int.natCast_inj]
    · rw [if_neg hpos, if_neg (by omega)]
  induction toClose with
  | nil => simp
  | cons fd toClose ih =>
    intro fds
    rw [List.foldl_cons, ih, hone]
    by_cases hfd : (n : Int) = fd
    · simp [hfd]
    · simp [hfd]

/-- Exactly the descriptors to keep are left. -/
theorem closeFdsExcept_ok {keepFds : List Int} {k : SandboxKernel} {s s' : Confinement}
    (hproc : ∀ dir, k.procFd = .ok dir → dir.Lists s.fds) (h : closeFdsExcept keepFds k s = .ok s') :
    s' = { s with fds := fun n => if (n : Int) ∈ keepFds then s.fds n else none } := by
  unfold closeFdsExcept at h
  split at h
  · cases h
  rename_i dir hdir
  obtain ⟨hfree, hlists⟩ := hproc dir hdir
  dsimp only at h
  obtain rfl := (Except.ok.inj h).symm
  congr 1
  funext n
  rw [foldl_closeRaw]
  have hdropped : (s.fds.put (some dir.dirfd) (some (.opened procFdFlags))).erase dir.dirfd n
      = s.fds n := by
    simp only [Fds.erase, Fds.put]
    split
    · rename_i heq
      rw [heq, hfree]
    · rfl
  rw [hdropped]
  have hmem : (n : Int) ∈ (dir.names.filterMap fun name => name.bind parseRawFd).filter
        (fun fd => !(keepFds.contains fd || fd == (dir.dirfd : Int))) ↔
      (n : Int) ∈ dir.names.filterMap (fun name => name.bind parseRawFd) ∧
        (n : Int) ∉ keepFds ∧ n ≠ dir.dirfd := by
    simp only [List.mem_filter, Bool.not_eq_true', Bool.or_eq_false_iff, List.contains_eq_mem,
      decide_eq_false_iff_not, beq_eq_false_iff_ne, ne_eq, Int.natCast_inj]
  by_cases hkeep : (n : Int) ∈ keepFds
  · rw [if_pos hkeep, if_neg fun hin => (hmem.mp hin).2.1 hkeep]
  rw [if_neg hkeep]
  by_cases hopen : s.fds n = none
  · rw [hopen, ite_self]
  · obtain ⟨hlt, name, hname, hnum⟩ := hlists n hopen
    refine if_pos (hmem.mpr ⟨?_, hkeep, ?_⟩)
    · exact List.mem_filterMap.mpr ⟨some name, hname, parseRawFd_numeral hnum hlt⟩
    · rintro rfl
      exact hopen hfree

theorem foldlM_writeFile {k : SandboxKernel} (files : List (String × String)) :
    ∀ {s s' : Confinement}, files.foldlM (writeFile k) s = .ok s' →
      s' = { s with written := s.written ++ files } := by
  induction files with
  | nil =>
    intro s s' h
    obtain rfl := Except.ok.inj h
    simp
  | cons file files ih =>
    intro s s' h
    rw [List.foldlM_cons] at h
    obtain ⟨s₁, h₁, h₂⟩ := andThen_ok h
    unfold writeFile at h₁
    split at h₁
    · cases h₁
    · obtain rfl := Except.ok.inj h₁
      simpa using ih h₂

theorem foldlM_setRlimit {k : SandboxKernel} (limits : List (String × Nat)) :
    ∀ {s s' : Confinement}, limits.foldlM (setRlimit k) s = .ok s' →
      s' = { s with rlimits := s.rlimits ++ limits } := by
  induction limits with
  | nil =>
    intro s s' h
    obtain rfl := Except.ok.inj h
    simp
  | cons limit limits ih =>
    intro s s' h
    rw [List.foldlM_cons] at h
    obtain ⟨s₁, h₁, h₂⟩ := andThen_ok h
    unfold setRlimit at h₁
    split at h₁
    · cases h₁
    · obtain rfl := Except.ok.inj h₁
      simpa using ih h₂

/-- The namespaces are left all three, with the ids mapped, or none of them. -/
theorem unshareNamespaces_ok {k : SandboxKernel} {s s' : Confinement}
    (h : unshareNamespaces k s = .ok s') :
    s' = s ∨
    s' = { s with
      userNs := true, netNs := true, mountNs := true,
      written := s.written ++ idMapFiles s.uid s.gid } := by
  unfold unshareNamespaces at h
  split at h
  · exact .inl (Except.ok.inj h).symm
  split at h
  · cases h
  rename_i hfiles
  have hwritten := foldlM_writeFile _ hfiles
  split at h
  · cases h
  split at h
  · cases h
  obtain rfl := Except.ok.inj h
  rw [hwritten]
  exact .inr rfl

/-- A process in the sandbox, where `s` is as it started. -/
structure Sandboxed (keepFds : List Int) (s s' : Confinement) : Prop where
  noNewPrivs : s'.noNewPrivs = true
  fds : ∀ n, s'.fds n = if (n : Int) ∈ keepFds then s.fds n else none
  namespaces : (s'.userNs = true ∧ s'.netNs = true ∧ s'.mountNs = true ∧
      s'.written = s.written ++ idMapFiles s.uid s.gid) ∨
    (s'.userNs = s.userNs ∧ s'.netNs = s.netNs ∧ s'.mountNs = s.mountNs ∧
      s'.written = s.written)
  rlimits : s'.rlimits = s.rlimits ++ rlimitPairs
  filter : s'.filter = some decoderFilter

theorem enterSandbox_ok {keepFds : List Int} {k : SandboxKernel} {s s' : Confinement}
    (hproc : ∀ dir, k.procFd = .ok dir → dir.Lists s.fds) (h : enterSandbox keepFds k s = .ok s') :
    Sandboxed keepFds s s' := by
  unfold enterSandbox at h
  obtain ⟨s₁, h₁, h⟩ := andThen_ok h
  obtain ⟨s₂, h₂, h⟩ := andThen_ok h
  obtain ⟨s₃, h₃, h⟩ := andThen_ok h
  obtain ⟨s₄, h₄, h⟩ := andThen_ok h
  have hs₁ : s₁ = { s with noNewPrivs := true } := by
    unfold setNoNewPrivs at h₁
    split at h₁
    · cases h₁
    · exact (Except.ok.inj h₁).symm
  have hproc₁ : ∀ dir, k.procFd = .ok dir → dir.Lists s₁.fds := by
    rw [hs₁]
    exact hproc
  obtain rfl := closeFdsExcept_ok hproc₁ h₂
  subst hs₁
  obtain rfl := foldlM_setRlimit _ h₄
  unfold installSeccompFilter at h
  split at h
  · cases h
  obtain rfl := Except.ok.inj h
  rcases unshareNamespaces_ok h₃ with rfl | rfl
  · exact ⟨rfl, fun n => rfl, .inr ⟨rfl, rfl, rfl, rfl⟩, rfl, rfl⟩
  · exact ⟨rfl, fun n => rfl, .inl ⟨rfl, rfl, rfl, rfl⟩, rfl, rfl⟩

/-! ## What the filter lets through -/

theorem foldl_insertRules (calls : List (Nat × String)) (nr : Nat) :
    ∀ rules : Nat → Option (List (List Condition)),
      calls.foldl (fun rules call => insertRules rules call.1 []) rules nr =
        if nr ∈ calls.map Prod.fst then some [] else rules nr := by
  induction calls with
  | nil => simp
  | cons call calls ih =>
    intro rules
    rw [List.foldl_cons, ih]
    unfold insertRules
    rw [List.map_cons]
    by_cases hnr : nr = call.1
    · simp [hnr]
    · simp only [List.mem_cons, hnr, if_false, false_or]

theorem decoderFilter_rules (nr : Nat) :
    decoderFilter.rules nr = if nr = 257 then some [openatReadonly]
      else if nr ∈ allowedSyscalls.map Prod.fst then some [] else none := by
  show insertRules _ 257 _ nr = _
  unfold insertRules
  split
  · rfl
  · exact foldl_insertRules allowedSyscalls nr _

/-- Flags without any of a mask have none of its parts. -/
theorem and_part_eq_zero {x mask : UInt32} (part : UInt32) (h : x &&& mask = 0)
    (hpart : mask &&& part = part) : x &&& part = 0 := by
  rw [← hpart, ← UInt32.and_assoc, h, UInt32.zero_and]

theorem decoderFilter_tight : decoderFilter.Tight := by
  constructor
  · intro c hc
    have hall : ∀ nr ∈ 257 :: allowedSyscalls.map Prod.fst, kind nr ≠ .outside := by decide
    refine hall c.nr (List.mem_cons.mpr ?_)
    unfold Filter.allows at hc
    rw [decoderFilter_rules] at hc
    by_contra hno
    obtain ⟨hne, hnot⟩ := not_or.mp hno
    rw [if_neg hne, if_neg hnot] at hc
    simp at hc
  · intro c hc hkind
    have hnr : c.nr = 257 := by
      by_contra hne
      unfold kind at hkind
      rw [if_neg hne] at hkind
      split_ifs at hkind
    unfold Filter.allows at hc
    rw [decoderFilter_rules, if_pos hnr] at hc
    simp only [openatReadonly, Seccomp.flagsArg, Condition.holds, List.any_cons, List.any_nil,
      List.all_cons, List.all_nil, Bool.or_false, Bool.and_true, Bool.and_eq_true, beq_iff_eq,
      UInt32.zero_and] at hc
    obtain ⟨-, hmode, hcreate⟩ := hc
    have hmake := and_part_eq_zero 0x40 hcreate (by decide)
    have htmp := and_part_eq_zero 0x400000 hcreate (by decide)
    exact ⟨by simp [Seccomp.writes, hmode], by simp [Seccomp.creates, hmake, htmp]⟩

/-! ## Every run -/

/-- `IPC_FD`. -/
def ipcFd : Int := 3

/-- `STDERR_FILENO`. -/
def stderrFileno : Int := 2

/-- `main`: the sandbox, and then whatever calls the decoder makes, its own or those that a video
made it make. The exit code of a sandbox that failed is 1. -/
def decoderMain (k : SandboxKernel) (s : Confinement) (other : Fds → Syscall → Fds)
    (calls : List (Syscall × Answer)) : Except Nat (Confinement × Jail × List Seccomp.Event) :=
  match enterSandbox [ipcFd, stderrFileno] k s with
  | .error _ => .error 1
  | .ok s =>
    match s.filter with
    | none => .error 1
    | some filter => .ok (s, run (filter.step other) ⟨s.fds, false⟩ calls)

/-- **The decoder is confined.** Whatever calls it makes after the sandbox, its descriptors are those
of the compositor's socket and of `stderr`, those that came over a socket, files opened to be read
only, and what an `ioctl` made from one of these; it never gets to a call of another kind, to fork,
to execute a program or to make a socket, say, whatever these would do; and nothing happens after the
first call that is not allowed. `O_TRUNC` is not looked at, nor is the `ioctl`. -/
theorem decoder_confined {k : SandboxKernel} {uid gid : UInt32} {fds : Fds}
    {other : Fds → Syscall → Fds} {calls : List (Syscall × Answer)} {s : Confinement} {jail : Jail}
    {tr : List Seccomp.Event} (hfds : ∀ n origin, fds n = some origin → origin = .inherited n)
    (hproc : ∀ dir, k.procFd = .ok dir → dir.Lists fds)
    (h : decoderMain k (.start uid gid fds) other calls = .ok (s, jail, tr)) :
    Sandboxed [ipcFd, stderrFileno] (.start uid gid fds) s ∧
      (∀ n origin, jail.fds n = some origin →
        Jailed (fun fd => fd = 3 ∨ fd = 2) origin) ∧
      Always Seccomp.EventOk tr ∧
      ∀ other', decoderMain k (.start uid gid fds) other' calls = .ok (s, jail, tr) := by
  unfold decoderMain at h
  split at h
  · cases h
  rename_i s' henter
  have hsand := enterSandbox_ok hproc henter
  rw [hsand.filter] at h
  obtain ⟨rfl, hrun⟩ := Prod.mk.inj (Except.ok.inj h)
  have hkept : ∀ n origin, s'.fds n = some origin →
      Jailed (fun fd => fd = 3 ∨ fd = 2) origin := by
    intro n origin ho
    rw [hsand.fds] at ho
    split at ho
    · rename_i hkeep
      rw [hfds n origin ho]
      simp only [ipcFd, stderrFileno, List.mem_cons, List.not_mem_nil, or_false] at hkeep
      show n = 3 ∨ n = 2
      omega
    · cases ho
  have hjail := Seccomp.run_jailed decoderFilter_tight other hkept calls
  rw [hrun] at hjail
  refine ⟨hsand, hjail.1, hjail.2, fun other' => ?_⟩
  unfold decoderMain
  rw [henter]
  dsimp only
  rw [hsand.filter]
  dsimp only
  rw [Seccomp.run_outside decoderFilter_tight other' other, hrun]

/-- A decoder that inherited one descriptor too many, where everything works. -/
def leakedFds : Fds := fun n => if n ∈ [2, 3, 7] then some (.inherited n) else none

def leakedProcFd : ProcFd := ⟨4, [some ".", some "..", some "2", some "3", some "7", some "4"]⟩

theorem leakedProcFd_lists : leakedProcFd.Lists leakedFds := by
  refine ⟨by decide, fun fd hfd => ?_⟩
  have hmem : fd ∈ [2, 3, 7] := by
    by_contra hno
    exact hfd (if_neg hno)
  simp only [List.mem_cons, List.not_mem_nil, or_false] at hmem
  rcases hmem with rfl | rfl | rfl
  · exact ⟨by decide, "2", by decide, by decide⟩
  · exact ⟨by decide, "3", by decide, by decide⟩
  · exact ⟨by decide, "7", by decide, by decide⟩

/-- The kernel of that decoder. -/
def leakedKernel : SandboxKernel :=
  ⟨.ok (), .ok leakedProcFd, fun _ => .ok (), fun _ => .ok (), fun _ => .ok (), .ok ()⟩

/-- A call of `x86_64` with at most three arguments. -/
def callOf (nr : Nat) (a b c : UInt64) : Syscall :=
  ⟨0xC000003E, nr, fun i => if i.val = 0 then a else if i.val = 1 then b else if i.val = 2 then c else 0⟩

/-- It opens a file, gets another from its peer, and asks for a socket. -/
def straying : List (Syscall × Answer) :=
  [(callOf 257 0 0 0x80000, ⟨some 4, []⟩), (callOf 47 3 0 0, ⟨none, [5]⟩),
    (callOf 41 1 1 0, ⟨some 6, []⟩), (callOf 3 3 0 0, ⟨none, []⟩)]

theorem decoder_confined_strays :
    ∃ s jail tr, decoderMain leakedKernel (.start 998 998 leakedFds) (fun fds _ => fds) straying
        = .ok (s, jail, tr) ∧ tr = [.opened 0x80000, .killed 41] ∧
      (jail.fds 7 = none ∧ (jail.fds 3).isSome = true) ∧
      Sandboxed [ipcFd, stderrFileno] (.start 998 998 leakedFds) s ∧
      (∀ n origin, jail.fds n = some origin → Jailed (fun fd => fd = 3 ∨ fd = 2) origin) ∧
      Always Seccomp.EventOk tr := by
  have hfds : ∀ n origin, leakedFds n = some origin → origin = .inherited n := by
    intro n origin ho
    unfold leakedFds at ho
    split at ho
    · exact (Option.some.inj ho).symm
    · cases ho
  have hproc : ∀ dir, leakedKernel.procFd = .ok dir → dir.Lists leakedFds := by
    intro dir hdir
    obtain rfl := Except.ok.inj hdir
    exact leakedProcFd_lists
  have hmain : decoderMain leakedKernel (.start 998 998 leakedFds) (fun fds _ => fds) straying
      = .ok _ := rfl
  obtain ⟨hsand, hjail, htr, -⟩ := decoder_confined hfds hproc hmain
  exact ⟨_, _, _, hmain, rfl, ⟨rfl, rfl⟩, hsand, hjail, htr⟩

/-- A file may be cut off when it is opened to be read. -/
example : decoderFilter.allows (callOf 257 0 0 0x200) = true := by decide

end Halmasuit.Decoder
