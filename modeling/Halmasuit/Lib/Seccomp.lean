import Halmasuit.Lib.Run

/-!
# A process under a seccomp filter

The descriptors of a process on Linux, and what a filter of system calls lets it do with them. A
descriptor is known by where it came from (`Origin`). The calls that no table here lists, among them
every way to a new process, a new program, a new socket and a file by another call than `openat`,
may do anything (`Kind.outside`).

- `run_outside`: where a filter lets none of these through, it does not matter what they do;
- **`run_jailed`**: and then every descriptor comes from one that there was, from an `openat` that
  the filter let through, or from a peer that passed it.
-/

namespace Halmasuit.Lib.Seccomp

/-! ## Filters -/

/-- A system call, with its number and the registers of its arguments. -/
structure Syscall where
  arch : UInt32
  nr : Nat
  args : Fin 6 → UInt64

/-- An argument of 32 bits. -/
def Syscall.arg (c : Syscall) (i : Fin 6) : UInt32 := (c.args i).toUInt32

/-- Where `openat(2)` has its flags. -/
def flagsArg : Fin 6 := 2

/-- A condition on an argument of 32 bits: those of `mask` are as in `value`. -/
structure Condition where
  arg : Fin 6
  mask : UInt32
  value : UInt32

def Condition.holds (cond : Condition) (c : Syscall) : Bool :=
  c.arg cond.arg &&& cond.mask == cond.value &&& cond.mask

/-- A filter has rules for calls of one architecture. One rule is to hold, with all its conditions;
a call without any is let through. The others kill the process. -/
structure Filter where
  arch : UInt32
  rules : Nat → Option (List (List Condition))

def Filter.allows (f : Filter) (c : Syscall) : Bool :=
  c.arch == f.arch &&
    match f.rules c.nr with
    | none => false
    | some [] => true
    | some rules => rules.any fun rule => rule.all (·.holds c)

/-! ## Descriptors -/

/-- Where a descriptor comes from. -/
inductive Origin where
  /-- It was there, under this number. -/
  | inherited (fd : Nat)
  /-- `openat`, with these flags. -/
  | opened (flags : UInt32)
  /-- A message brought it. -/
  | received
  /-- An `ioctl` made it, from another one. -/
  | derived (of : Origin)
  deriving DecidableEq, Repr

/-- Where it comes from in the end. -/
def Origin.root : Origin → Origin
  | .derived of => of.root
  | .inherited fd => .inherited fd
  | .opened flags => .opened flags
  | .received => .received

/-- The descriptors of a process. -/
abbrev Fds : Type := Nat → Option Origin

/-- A new descriptor, where there is one. -/
def Fds.put (fds : Fds) : Option Nat → Option Origin → Fds
  | some fd, some origin => fun n => if n = fd then some origin else fds n
  | _, _ => fds

def Fds.erase (fds : Fds) (fd : Nat) : Fds := fun n => if n = fd then none else fds n

/-- What the kernel answers: the number of a new descriptor, and those of the descriptors that came
with a message. -/
structure Answer where
  fd : Option Nat
  received : List Nat

/-- What a call does to the descriptors. -/
inductive Kind where
  | openat
  | dup
  | fcntl
  | recvmsg
  | close
  | ioctl
  /-- Nothing; and it makes no process, no program and no name of a file. -/
  | inert
  | outside
  deriving DecidableEq, Repr

/-- Calls of `x86_64` that leave the descriptors as they are: `read`, `write`, `fstat`, `poll`,
`lseek`, `mmap`, `mprotect`, `munmap`, `brk`, `rt_sigaction`, `rt_sigprocmask`, `rt_sigreturn`,
`pread64`, `readv`, `writev`, `mremap`, `madvise`, `nanosleep`, `getpid`, `sendto`, `recvfrom`,
`sendmsg`, `exit`, `sigaltstack`, `futex`, `restart_syscall`, `clock_gettime`, `clock_nanosleep`,
`exit_group`, `newfstatat`, `ppoll`, `set_robust_list`, `getrandom`, `membarrier`, `statx`,
`rseq`. -/
def inertCalls : List Nat :=
  [0, 1, 5, 7, 8, 9, 10, 11, 12, 13, 14, 15, 17, 19, 20, 25, 28, 35, 39, 44, 45, 46, 60, 131, 202,
    219, 228, 230, 231, 262, 271, 273, 318, 324, 332, 334]

/-- The kind of a call of `x86_64`. -/
def kind (nr : Nat) : Kind :=
  if nr = 257 then .openat
  else if nr = 32 then .dup
  else if nr = 72 then .fcntl
  else if nr = 47 then .recvmsg
  else if nr = 3 then .close
  else if nr = 16 then .ioctl
  else if nr ∈ inertCalls then .inert
  else .outside

/-- `F_DUPFD` and `F_DUPFD_CLOEXEC`. -/
def dupCommands : List UInt32 := [0, 1030]

inductive Event where
  | opened (flags : UInt32)
  | outside (nr : Nat)
  | killed (nr : Nat)
  deriving DecidableEq, Repr

/-- What a call does. -/
def effect (other : Fds → Syscall → Fds) (fds : Fds) (c : Syscall) (a : Answer) :
    Fds × List Event :=
  match kind c.nr with
  | .openat => (fds.put a.fd (some (.opened (c.arg 2))), a.fd.toList.map fun _ => .opened (c.arg 2))
  | .dup => (fds.put a.fd (fds (c.arg 0).toNat), [])
  | .fcntl => (if c.arg 1 ∈ dupCommands then fds.put a.fd (fds (c.arg 0).toNat) else fds, [])
  | .recvmsg => (a.received.foldl (fun fds fd => fds.put (some fd) (some .received)) fds, [])
  | .close => (fds.erase (c.arg 0).toNat, [])
  | .ioctl => (fds.put a.fd ((fds (c.arg 0).toNat).map .derived), [])
  | .inert => (fds, [])
  | .outside => (other fds c, [.outside c.nr])

/-- A process under a filter. -/
structure Jail where
  fds : Fds
  killed : Bool

/-- One call. -/
def Filter.step (f : Filter) (other : Fds → Syscall → Fds) (s : Jail) (i : Syscall × Answer) :
    Jail × List Event :=
  if s.killed then (s, [])
  else if f.allows i.1 then
    (⟨(effect other s.fds i.1 i.2).1, false⟩, (effect other s.fds i.1 i.2).2)
  else (⟨s.fds, true⟩, [.killed i.1.nr])

/-! ## What a filter keeps out -/

/-- The access mode of `open` is not `O_RDONLY`. -/
def writes (flags : UInt32) : Bool := flags &&& 0x3 != 0

/-- `open` makes a file, named (`O_CREAT`) or not (`O_TMPFILE`). -/
def creates (flags : UInt32) : Bool := flags &&& 0x40 != 0 || flags &&& 0x400000 != 0

/-- A filter lets through no call of a kind that is not known, and no `openat` that writes or makes
a file. -/
structure Filter.Tight (f : Filter) : Prop where
  inside : ∀ c, f.allows c = true → kind c.nr ≠ .outside
  reads : ∀ c, f.allows c = true → kind c.nr = .openat →
    writes (c.arg 2) = false ∧ creates (c.arg 2) = false

/-- **What is outside does not matter.** -/
theorem run_outside {f : Filter} (h : f.Tight) (other other' : Fds → Syscall → Fds)
    (calls : List (Syscall × Answer)) : ∀ s : Jail,
    run (f.step other) s calls = run (f.step other') s calls := by
  have hstep : ∀ s i, f.step other s i = f.step other' s i := by
    intro s i
    unfold Filter.step
    split
    · rfl
    split
    · rename_i hallows
      have hkind := h.inside i.1 hallows
      unfold effect
      cases hk : kind i.1.nr with
      | outside => exact absurd hk hkind
      | _ => rfl
    · rfl
  induction calls with
  | nil => exact fun s => rfl
  | cons i calls ih =>
    intro s
    simp only [run, hstep, ih]

/-- A descriptor that a jailed process may have, where the first ones satisfy `P`: it is, or was made
by an `ioctl` from, one of the first, one that was received, or a file opened to be read. -/
def Jailed (P : Nat → Prop) (origin : Origin) : Prop :=
  match origin.root with
  | .inherited fd => P fd
  | .opened flags => writes flags = false ∧ creates flags = false
  | .received => True
  | .derived _ => False

section
variable {P : Nat → Prop} {fds : Fds}

theorem put_jailed (h : ∀ n origin, fds n = some origin → Jailed P origin) (fd : Option Nat)
    {new : Option Origin} (hnew : ∀ origin, new = some origin → Jailed P origin) :
    ∀ n origin, fds.put fd new n = some origin → Jailed P origin := by
  intro n origin ho
  unfold Fds.put at ho
  split at ho
  · split at ho
    · exact hnew origin ho
    · exact h n origin ho
  · exact h n origin ho

theorem received_jailed (received : List Nat) : ∀ fds : Fds,
    (∀ n origin, fds n = some origin → Jailed P origin) →
    ∀ n origin, received.foldl (fun fds fd => fds.put (some fd) (some .received)) fds n
      = some origin → Jailed P origin := by
  induction received with
  | nil => exact fun fds h => h
  | cons fd received ih =>
    intro fds h
    refine ih _ (put_jailed h (some fd) fun origin ho => ?_)
    obtain rfl := Option.some.inj ho
    trivial

/-- One call that a tight filter lets through. -/
theorem effect_jailed {f : Filter} (hf : f.Tight) (other : Fds → Syscall → Fds) {c : Syscall}
    (hc : f.allows c = true) (a : Answer)
    (h : ∀ n origin, fds n = some origin → Jailed P origin) :
    (∀ n origin, (effect other fds c a).1 n = some origin → Jailed P origin) ∧
      ∀ e ∈ (effect other fds c a).2, ∃ flags, e = .opened flags ∧
        writes flags = false ∧ creates flags = false := by
  unfold effect
  cases hk : kind c.nr with
  | openat =>
    have hreads := hf.reads c hc hk
    refine ⟨put_jailed h a.fd fun origin ho => ?_, fun e he => ?_⟩
    · obtain rfl := Option.some.inj ho
      exact hreads
    · obtain ⟨-, -, rfl⟩ := List.mem_map.mp he
      exact ⟨_, rfl, hreads⟩
  | dup => exact ⟨put_jailed h a.fd fun origin ho => h _ origin ho, by simp⟩
  | fcntl =>
    refine ⟨?_, by simp⟩
    dsimp only
    split
    · exact put_jailed h a.fd fun origin ho => h _ origin ho
    · exact h
  | recvmsg => exact ⟨received_jailed a.received fds h, by simp⟩
  | close =>
    refine ⟨fun n origin ho => ?_, by simp⟩
    dsimp only [Fds.erase] at ho
    split at ho
    · cases ho
    · exact h n origin ho
  | ioctl =>
    refine ⟨put_jailed h a.fd fun origin ho => ?_, by simp⟩
    obtain ⟨of, hof, rfl⟩ := Option.map_eq_some_iff.mp ho
    exact h _ of hof
  | inert => exact ⟨h, by simp⟩
  | outside => exact absurd hk (hf.inside c hc)

/-- What is right about an event: after a kill there is none, and a file is opened to be read. -/
def EventOk (pre : List Event) (e : Event) : Prop :=
  (∀ nr, .killed nr ∉ pre) ∧
    match e with
    | .opened flags => writes flags = false ∧ creates flags = false
    | .outside _ => False
    | .killed _ => True

/-- A jailed process, after the events of its calls. -/
structure JailOk (P : Nat → Prop) (s : Jail) (tr : List Event) : Prop where
  fds : ∀ n origin, s.fds n = some origin → Jailed P origin
  trace : Always EventOk tr
  alive : s.killed = false → ∀ nr, .killed nr ∉ tr

theorem step_jailed {f : Filter} (hf : f.Tight) (other : Fds → Syscall → Fds) {s : Jail}
    {tr : List Event} (hs : JailOk P s tr) (i : Syscall × Answer) :
    JailOk P (f.step other s i).1 (tr ++ (f.step other s i).2) := by
  obtain ⟨hfds, htr, halive⟩ := hs
  unfold Filter.step
  by_cases hk : s.killed = true
  · rw [if_pos hk, List.append_nil]
    exact ⟨hfds, htr, halive⟩
  rw [if_neg hk]
  have hnone := halive (by simpa using hk)
  by_cases hallows : f.allows i.1 = true
  · rw [if_pos hallows]
    obtain ⟨hfds', hevents⟩ := effect_jailed hf other hallows i.2 hfds
    refine ⟨hfds', htr.append ?_, fun _ nr hmem => ?_⟩
    · intro pre e post heq
      have hmem : ∀ e' ∈ pre ++ [e], e' ∈ (effect other s.fds i.1 i.2).2 := by
        intro e' he'
        rw [heq]
        simp only [List.mem_append, List.mem_cons] at he' ⊢
        tauto
      obtain ⟨flags, rfl, hreads⟩ := hevents e (hmem e (by simp))
      refine ⟨fun nr hkilled => ?_, hreads⟩
      rcases List.mem_append.mp hkilled with hkilled | hkilled
      · exact hnone nr hkilled
      · obtain ⟨flags', heq', -⟩ := hevents _ (hmem _ (List.mem_append_left _ hkilled))
        cases heq'
    · rcases List.mem_append.mp hmem with hmem | hmem
      · exact hnone nr hmem
      · obtain ⟨flags, heq, -⟩ := hevents _ hmem
        cases heq
  · rw [if_neg hallows]
    exact ⟨hfds, htr.snoc ⟨hnone, trivial⟩, by simp⟩

/-- **The rule for jailed runs.** Whatever calls a process makes under a tight filter, its
descriptors come from those it had, from files that were opened to be read, and from its peers;
nothing else happens, and nothing at all after the first call that the filter does not allow. -/
theorem run_jailed {f : Filter} (hf : f.Tight) (other : Fds → Syscall → Fds)
    (h : ∀ n origin, fds n = some origin → Jailed P origin) (calls : List (Syscall × Answer)) :
    let r := run (f.step other) ⟨fds, false⟩ calls
    (∀ n origin, r.1.fds n = some origin → Jailed P origin) ∧ Always EventOk r.2 := by
  intro r
  have h0 : JailOk P ⟨fds, false⟩ [] := ⟨h, always_nil _, by simp⟩
  have hok := run_invariant_init (JailOk P) h0 (fun s tr i hs => step_jailed hf other hs i) calls
  exact ⟨hok.fds, hok.trace⟩

end

end Halmasuit.Lib.Seccomp
