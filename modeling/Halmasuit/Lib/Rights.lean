import Halmasuit.Lib.Run
import Mathlib.Data.List.Nodup
import Mathlib.Data.List.Perm.Basic
import Mathlib.Data.List.Perm.Subperm

/-!
# Descriptors that come with a message

The descriptors of a process and the files that they are open on (`Table`), and what a message adds
to them (`SCM_RIGHTS`). Each file that is attached to a message is opened for the process that reads
it, under the lowest number that is free, while the control buffer of the read has room and the
process may have more descriptors. A file for which there is no room is not opened, and the read is
marked with `MSG_CTRUNC` (`recvmsg`).

* The room is rounded up: `CMSG_SPACE` of one descriptor has room for two.
* Marked or not, the descriptors that were opened stay open until they are closed.
* How a library finds the descriptors in the buffer is a parameter: all of them, or an error if the
  read is marked (`Cmsgs`).

A `Receiver` is a function that reads one message and owns what it finds. `Holder` is a process that
calls one, and owns descriptors.

- `recvmsg_fds`, `recvmsg_ctrunc_iff`: what a read opens, and when it is marked;
- **`run_accounts`**: on every run, every descriptor of the process is owned, or was opened by a read
  that was marked;
- **`run_owned_iff`**: so every descriptor is owned exactly if no message had too many.
-/

namespace Halmasuit.Lib.Rights

variable {File : Type}

/-! ## The descriptors of a process -/

/-- A number is one descriptor. -/
structure Table (File : Type) where
  entries : List (Nat × File)
  nodup : (entries.map Prod.fst).Nodup

def lowest (used : List Nat) : Nat :=
  ((List.range (used.length + 1)).find? (· ∉ used)).getD used.length

/-- A number of those is free, since there is one more of them than are used. -/
theorem exists_lowest (used : List Nat) : ∃ n ∈ List.range (used.length + 1), n ∉ used := by
  by_contra hall
  push Not at hall
  have hle := (List.subperm_of_subset List.nodup_range hall).length_le
  rw [List.length_range] at hle
  exact Nat.not_succ_le_self _ hle

theorem lowest_notMem (used : List Nat) : lowest used ∉ used := by
  obtain ⟨n, hn, hfree⟩ := exists_lowest used
  unfold lowest
  cases hfind : (List.range (used.length + 1)).find? (· ∉ used) with
  | none => simpa [hfree] using List.find?_eq_none.mp hfind n hn
  | some m => simpa using List.find?_some hfind

theorem lowest_le (used : List Nat) : lowest used ≤ used.length := by
  unfold lowest
  cases hfind : (List.range (used.length + 1)).find? (· ∉ used) with
  | none => exact Nat.le_refl _
  | some m =>
    have := List.mem_range.mp (List.mem_of_find?_eq_some hfind)
    exact Nat.le_of_lt_succ this

namespace Table

def fds (t : Table File) : List Nat := t.entries.map Prod.fst

/-- The file of a descriptor. -/
def file? (t : Table File) (fd : Nat) : Option File :=
  (t.entries.find? fun e => e.1 = fd).map Prod.snd

/-- A descriptor on `f`. -/
def install (t : Table File) (f : File) : Table File where
  entries := t.entries ++ [(lowest t.fds, f)]
  nodup := by
    have hfree := lowest_notMem t.fds
    rw [List.map_append, List.nodup_append]
    refine ⟨t.nodup, List.nodup_singleton _, fun a ha b hb heq => ?_⟩
    obtain rfl : b = lowest t.fds := List.mem_singleton.mp hb
    exact hfree (heq ▸ ha)

/-- `close`, of each of them. -/
def closeAll (t : Table File) (fds : List Nat) : Table File where
  entries := t.entries.filter (·.1 ∉ fds)
  nodup := t.nodup.sublist (List.filter_sublist.map Prod.fst)

theorem fds_install (t : Table File) (f : File) : (t.install f).fds = t.fds ++ [lowest t.fds] := by
  simp [fds, install]

theorem fds_closeAll (t : Table File) (fds : List Nat) :
    (t.closeAll fds).fds = t.fds.filter (· ∉ fds) := by
  simp only [Table.fds, closeAll, List.filter_map]
  rfl

@[simp] theorem closeAll_nil (t : Table File) : t.closeAll [] = t := by
  cases t
  simp [closeAll]

theorem file?_install (t : Table File) (f : File) :
    (t.install f).file? (lowest t.fds) = some f := by
  have hnone : t.entries.find? (fun e => e.1 = lowest t.fds) = none := by
    rw [List.find?_eq_none]
    intro e he heq
    exact lowest_notMem t.fds (of_decide_eq_true heq ▸ List.mem_map_of_mem he)
  simp [file?, install, List.find?_append, hnone]

end Table

/-- The files are opened in turn, until the process may have no more descriptors. -/
def installAll (limit : Nat) : List File → Table File → List Nat × Table File
  | [], t => ([], t)
  | f :: fs, t =>
    if lowest t.fds < limit then
      let r := installAll limit fs (t.install f)
      (lowest t.fds :: r.1, r.2)
    else ([], t)

theorem fds_installAll (limit : Nat) (fs : List File) : ∀ t : Table File,
    (installAll limit fs t).2.fds = t.fds ++ (installAll limit fs t).1 := by
  induction fs with
  | nil => simp [installAll]
  | cons f fs ih =>
    intro t
    unfold installAll
    split
    · simp only
      rw [ih, Table.fds_install, List.append_assoc]
      rfl
    · simp

/-- All are opened if there are enough numbers. -/
theorem length_installAll {limit : Nat} (fs : List File) : ∀ t : Table File,
    t.fds.length + fs.length ≤ limit → (installAll limit fs t).1.length = fs.length := by
  induction fs with
  | nil => simp [installAll]
  | cons f fs ih =>
    intro t hroom
    have hlt : lowest t.fds < limit := by
      have := lowest_le t.fds
      rw [List.length_cons] at hroom
      omega
    unfold installAll
    rw [if_pos hlt]
    have hfs : (t.install f).fds.length + fs.length ≤ limit := by
      rw [Table.fds_install, List.length_append]
      simp only [List.length_cons, List.length_nil] at hroom ⊢
      omega
    simp [ih (t.install f) hfs]

/-! ## A read -/

structure Datagram (File : Type) where
  bytes : List UInt8
  /-- The files that are attached. -/
  rights : List File

/-- `CMSG_SPACE` of `n` descriptors: the header, and the descriptors in units of eight bytes. -/
def cmsgSpace (n : Nat) : Nat := 16 + (4 * n + 7) / 8 * 8

/-- `scm_max_fds`, the room of a control buffer. -/
def scmMaxFds (controllen : Nat) : Nat := (controllen - 16) / 4

/-- What a read gives. -/
structure Received where
  bytes : List UInt8
  fds : List Nat
  ctrunc : Bool
  deriving DecidableEq, Repr

/-- `recvmsg`. The rest of a message that is longer than the buffer is lost. -/
def recvmsg (limit buflen controllen : Nat) (d : Datagram File) (t : Table File) :
    Received × Table File :=
  let r := installAll limit (d.rights.take (scmMaxFds controllen)) t
  (⟨d.bytes.take buflen, r.1, decide (r.1.length < d.rights.length)⟩, r.2)

theorem recvmsg_fds (limit buflen controllen : Nat) (d : Datagram File) (t : Table File) :
    (recvmsg limit buflen controllen d t).2.fds =
      t.fds ++ (recvmsg limit buflen controllen d t).1.fds :=
  fds_installAll limit _ t

theorem length_recvmsg (buflen controllen : Nat) {limit : Nat} {d : Datagram File} {t : Table File}
    (hroom : t.fds.length + d.rights.length ≤ limit) :
    (recvmsg limit buflen controllen d t).1.fds.length =
      min (scmMaxFds controllen) d.rights.length := by
  have hle : (d.rights.take (scmMaxFds controllen)).length ≤ d.rights.length :=
    List.length_take_le' _ _
  simp only [recvmsg]
  rw [length_installAll _ t (by omega), List.length_take]

/-- Where the process may have all of the descriptors, a read is marked exactly if the buffer has no
room for them. -/
theorem recvmsg_ctrunc_iff (buflen controllen : Nat) {limit : Nat} {d : Datagram File} {t : Table File}
    (hroom : t.fds.length + d.rights.length ≤ limit) :
    (recvmsg limit buflen controllen d t).1.ctrunc = true ↔
      scmMaxFds controllen < d.rights.length := by
  have hlen := length_recvmsg buflen controllen hroom
  have hctrunc : (recvmsg limit buflen controllen d t).1.ctrunc =
      decide ((recvmsg limit buflen controllen d t).1.fds.length < d.rights.length) := rfl
  rw [hctrunc, decide_eq_true_eq, hlen]
  omega

/-- A message without descriptors. -/
theorem recvmsg_none (limit buflen controllen : Nat) (bytes : List UInt8) (t : Table File) :
    recvmsg limit buflen controllen ⟨bytes, []⟩ t = (⟨bytes.take buflen, [], false⟩, t) := by
  simp [recvmsg, installAll]

/-- A message with one. -/
theorem recvmsg_one {limit buflen controllen : Nat} (hpos : 0 < scmMaxFds controllen)
    (bytes : List UInt8) (f : File) {t : Table File} (hroom : t.fds.length + 1 ≤ limit) :
    recvmsg limit buflen controllen ⟨bytes, [f]⟩ t =
      (⟨bytes.take buflen, [lowest t.fds], false⟩, t.install f) := by
  have hlt : lowest t.fds < limit := Nat.lt_of_le_of_lt (lowest_le t.fds) hroom
  have htake : [f].take (scmMaxFds controllen) = [f] := List.take_of_length_le hpos
  simp only [recvmsg, htake, installAll, if_pos hlt]
  simp

/-- How a library reads the control buffer: it finds every descriptor, and is an error on a read that
is marked. -/
structure Cmsgs where
  cmsgs : Received → Except Nat (List Nat)
  cmsgs_whole : ∀ r, r.ctrunc = false → cmsgs r = .ok r.fds
  cmsgs_cut : ∀ r, r.ctrunc = true → ∃ errno, cmsgs r = .error errno

/-- With the error `ENOBUFS`. -/
def Cmsgs.enobufs : Cmsgs where
  cmsgs r := if r.ctrunc then .error 105 else .ok r.fds
  cmsgs_whole r h := by rw [h, if_neg Bool.false_ne_true]
  cmsgs_cut r h := ⟨105, if_pos h⟩

/-! ## Who owns a descriptor -/

/-- A function that reads a message. What it finds in the control buffer it owns at once, then it
checks the message; what it does not return it closes. -/
structure Receiver (ε β : Type) where
  buflen : Nat
  controllen : Nat
  /-- The error of a marked read, where the function looks at the mark itself. -/
  truncated : Option ε
  /-- The error of `Cmsgs`. -/
  ofErrno : Nat → ε
  /-- The checks, and the descriptors that are not returned. -/
  finish : List UInt8 → List Nat → Except ε β × List Nat
  /-- The descriptors in what is returned. -/
  kept : β → List Nat
  finish_ok : ∀ {bytes fds b dropped}, finish bytes fds = (.ok b, dropped) →
    fds.Perm (kept b ++ dropped)
  finish_error : ∀ {bytes fds e dropped}, finish bytes fds = (.error e, dropped) → dropped = fds

variable {ε β : Type}

/-- A message is read, checked, and returned or refused. -/
def Receiver.receive (rd : Receiver ε β) (nix : Cmsgs) (limit : Nat) (d : Datagram File)
    (t : Table File) : Except ε β × Table File :=
  let r := recvmsg limit rd.buflen rd.controllen d t
  match if r.1.ctrunc then rd.truncated else none with
  | some e => (.error e, r.2)
  | none =>
    match nix.cmsgs r.1 with
    | .error errno => (.error (rd.ofErrno errno), r.2)
    | .ok fds =>
      let answer := rd.finish r.1.bytes fds
      (answer.1, r.2.closeAll answer.2)

/-- The descriptors in an answer. -/
def Receiver.owns (rd : Receiver ε β) : Except ε β → List Nat
  | .ok b => rd.kept b
  | .error _ => []

/-- The descriptors that a marked read opened. -/
def lost (r : Received) : List Nat := if r.ctrunc then r.fds else []

/-- Of the numbers that are used, closing the last ones leaves the others. -/
theorem filter_notMem_append {as bs : List Nat} (h : (as ++ bs).Nodup) :
    (as ++ bs).filter (· ∉ bs) = as := by
  rw [List.filter_append, List.filter_eq_self.mpr, List.filter_eq_nil_iff.mpr, List.append_nil]
  · intro b hb
    simpa using hb
  · intro a ha
    simpa using fun hb => (List.nodup_append.mp h).2.2 a ha a hb rfl

/-- A marked read is an error, whatever it opened. -/
theorem Receiver.receive_cut (rd : Receiver ε β) (nix : Cmsgs) (limit : Nat) (d : Datagram File)
    (t : Table File) (h : (recvmsg limit rd.buflen rd.controllen d t).1.ctrunc = true) :
    ∃ e, rd.receive nix limit d t =
      (.error e, (recvmsg limit rd.buflen rd.controllen d t).2) := by
  obtain ⟨errno, hcmsgs⟩ := nix.cmsgs_cut _ h
  simp only [Receiver.receive, h, if_true, hcmsgs]
  cases rd.truncated with
  | some e => exact ⟨e, rfl⟩
  | none => exact ⟨rd.ofErrno errno, rfl⟩

/-- Of another read, the descriptors are found and the message is checked. -/
theorem Receiver.receive_whole (rd : Receiver ε β) (nix : Cmsgs) (limit : Nat) (d : Datagram File)
    (t : Table File) (h : (recvmsg limit rd.buflen rd.controllen d t).1.ctrunc = false) :
    rd.receive nix limit d t =
      let r := recvmsg limit rd.buflen rd.controllen d t
      let answer := rd.finish r.1.bytes r.1.fds
      (answer.1, r.2.closeAll answer.2) := by
  simp only [Receiver.receive, h, Bool.false_eq_true, if_false, nix.cmsgs_whole _ h]

/-- **What a call leaves open** is what was open, what it returns and what a marked read opened. -/
theorem Receiver.receive_fds (rd : Receiver ε β) (nix : Cmsgs) (limit : Nat) (d : Datagram File)
    (t : Table File) :
    (rd.receive nix limit d t).2.fds.Perm (t.fds ++ (rd.owns (rd.receive nix limit d t).1 ++
      lost (recvmsg limit rd.buflen rd.controllen d t).1)) := by
  have hfds := recvmsg_fds limit rd.buflen rd.controllen d t
  have hnodup : (t.fds ++ (recvmsg limit rd.buflen rd.controllen d t).1.fds).Nodup :=
    hfds ▸ (recvmsg limit rd.buflen rd.controllen d t).2.nodup
  cases hcut : (recvmsg limit rd.buflen rd.controllen d t).1.ctrunc with
  | true =>
    obtain ⟨e, he⟩ := rd.receive_cut nix limit d t hcut
    rw [he, lost, if_pos hcut]
    exact List.Perm.of_eq hfds
  | false =>
    rw [rd.receive_whole nix limit d t hcut, lost, hcut, if_neg Bool.false_ne_true, List.append_nil]
    simp only [Table.fds_closeAll, hfds]
    generalize (recvmsg limit rd.buflen rd.controllen d t).1 = r at hnodup
    cases hfin : rd.finish r.bytes r.fds with
    | mk answer dropped =>
      cases answer with
      | ok b =>
        have hperm : (t.fds ++ r.fds).Perm (t.fds ++ rd.kept b ++ dropped) := by
          rw [List.append_assoc]
          exact (rd.finish_ok hfin).append_left t.fds
        have hkept := filter_notMem_append (hperm.nodup hnodup)
        exact (hperm.filter _).trans (List.Perm.of_eq hkept)
      | error e =>
        rw [rd.finish_error hfin, filter_notMem_append hnodup]
        simp [Receiver.owns]

/-- A process, with the descriptors that its values own. -/
structure Holder (File : Type) where
  table : Table File
  held : List Nat

inductive Act (File : Type) where
  /-- The message that is next is read; what is returned is owned. -/
  | receive (d : Datagram File)
  /-- An owner ends. -/
  | drop (fd : Nat)
  /-- A descriptor of the process's own. -/
  | install (f : File)

/-- The reads are reported. -/
def Receiver.step (rd : Receiver ε β) (nix : Cmsgs) (limit : Nat) (p : Holder File) :
    Act File → Holder File × List Received
  | .receive d =>
    let r := rd.receive nix limit d p.table
    (⟨r.2, p.held ++ rd.owns r.1⟩, [(recvmsg limit rd.buflen rd.controllen d p.table).1])
  | .drop fd =>
    if fd ∈ p.held then (⟨p.table.closeAll [fd], p.held.erase fd⟩, []) else (p, [])
  | .install f => (⟨p.table.install f, p.held ++ [lowest p.table.fds]⟩, [])

/-- Every descriptor is owned, or was opened by a marked read. -/
def Holder.Accounted (p : Holder File) (reads : List Received) : Prop :=
  p.table.fds.Perm (p.held ++ reads.flatMap lost)

theorem Receiver.step_accounts (rd : Receiver ε β) (nix : Cmsgs) (limit : Nat) {p : Holder File}
    {reads : List Received} (h : p.Accounted reads) (a : Act File) :
    (rd.step nix limit p a).1.Accounted (reads ++ (rd.step nix limit p a).2) := by
  unfold Holder.Accounted at *
  rw [List.flatMap_append]
  cases a with
  | receive d =>
    have hcall := rd.receive_fds nix limit d p.table
    simp only [Receiver.step, List.flatMap_cons, List.flatMap_nil, List.append_nil]
    refine hcall.trans ((h.append_right _).trans ?_)
    rw [List.append_assoc, List.append_assoc]
    refine List.Perm.append_left p.held ?_
    rw [← List.append_assoc, ← List.append_assoc]
    exact List.perm_append_comm.append_right _
  | drop fd =>
    by_cases hheld : fd ∈ p.held
    · simp only [Receiver.step, if_pos hheld, List.flatMap_nil, List.append_nil]
      have herase : (p.table.closeAll [fd]).fds = p.table.fds.erase fd := by
        have hnodup : p.table.fds.Nodup := p.table.nodup
        rw [Table.fds_closeAll, hnodup.erase_eq_filter]
        refine List.filter_congr fun x _ => ?_
        by_cases hx : x = fd <;> simp [hx]
      rw [herase, ← List.erase_append_left _ hheld]
      exact h.erase fd
    · simp only [Receiver.step, if_neg hheld, List.flatMap_nil, List.append_nil]
      exact h
  | install f =>
    simp only [Receiver.step, List.flatMap_nil, List.append_nil]
    rw [Table.fds_install, List.append_assoc]
    refine (h.append_right _).trans ?_
    rw [List.append_assoc]
    exact List.perm_append_comm.append_left p.held

/-- **Every descriptor has an owner**, but those of the marked reads. -/
theorem run_accounts (rd : Receiver ε β) (nix : Cmsgs) (limit : Nat) (p : Holder File)
    (hp : p.table.fds.Perm p.held) (acts : List (Act File)) :
    (run (rd.step nix limit) p acts).1.Accounted (run (rd.step nix limit) p acts).2 := by
  have h₀ : p.Accounted [] := by simpa [Holder.Accounted] using hp
  simpa using run_invariant (fun p reads => p.Accounted reads)
    (fun _ _ a h => rd.step_accounts nix limit h a) acts p [] h₀

/-- The process may have the descriptors of a message that it reads. -/
def Roomy (limit : Nat) (p : Holder File) : Act File → Prop
  | .receive d => p.table.fds.length + d.rights.length ≤ limit
  | _ => True

instance (limit : Nat) (p : Holder File) : ∀ a, Decidable (Roomy limit p a)
  | .receive _ => inferInstanceAs (Decidable (_ ≤ _))
  | .drop _ | .install _ => inferInstanceAs (Decidable True)

theorem lost_eq_nil_iff (buflen : Nat) {limit controllen : Nat} (hpos : 0 < scmMaxFds controllen)
    {d : Datagram File} {t : Table File} (hroom : t.fds.length + d.rights.length ≤ limit) :
    lost (recvmsg limit buflen controllen d t).1 = [] ↔ d.rights.length ≤ scmMaxFds controllen := by
  have hlen := length_recvmsg buflen controllen hroom
  have hcut := recvmsg_ctrunc_iff buflen controllen hroom
  unfold lost
  split
  · next hmarked =>
    have hmany := hcut.mp hmarked
    rw [← List.length_eq_zero_iff, hlen]
    omega
  · next hmarked => exact iff_of_true rfl (Nat.le_of_not_lt fun hlt => hmarked (hcut.mpr hlt))

theorem run_lost_iff (rd : Receiver ε β) (hpos : 0 < scmMaxFds rd.controllen) (nix : Cmsgs)
    (limit : Nat) (acts : List (Act File)) : ∀ p : Holder File,
    Along (rd.step nix limit) (Roomy limit) p acts →
      ((run (rd.step nix limit) p acts).2.flatMap lost = [] ↔
        ∀ d, Act.receive d ∈ acts → d.rights.length ≤ scmMaxFds rd.controllen) := by
  induction acts with
  | nil => simp [run]
  | cons a acts ih =>
    intro p h
    have ih := ih (rd.step nix limit p a).1 h.2
    simp only [run, List.flatMap_append, List.append_eq_nil_iff, ih, List.mem_cons]
    cases a with
    | receive d =>
      have hd := lost_eq_nil_iff rd.buflen hpos h.1
      simp only [Receiver.step, List.flatMap_cons, List.flatMap_nil, List.append_nil, hd,
        Act.receive.injEq]
      constructor
      · rintro ⟨hd, hrest⟩ d' (rfl | hd')
        · exact hd
        · exact hrest d' hd'
      · exact fun hall => ⟨hall d (.inl rfl), fun d' hd' => hall d' (.inr hd')⟩
    | drop fd =>
      have hnone : (rd.step nix limit p (.drop fd)).2 = [] := by
        unfold Receiver.step
        dsimp only
        split <;> rfl
      simp [hnone]
    | install f => simp [Receiver.step]

/-- **When every descriptor has an owner**: exactly if no message carried more than there is room
for. -/
theorem run_owned_iff (rd : Receiver ε β) (hpos : 0 < scmMaxFds rd.controllen) (nix : Cmsgs)
    (limit : Nat) (p : Holder File) (hp : p.table.fds.Perm p.held) (acts : List (Act File))
    (h : Along (rd.step nix limit) (Roomy limit) p acts) :
    (∀ fd ∈ (run (rd.step nix limit) p acts).1.table.fds,
        fd ∈ (run (rd.step nix limit) p acts).1.held) ↔
      ∀ d, Act.receive d ∈ acts → d.rights.length ≤ scmMaxFds rd.controllen := by
  have hacc := run_accounts rd nix limit p hp acts
  rw [← run_lost_iff rd hpos nix limit acts p h]
  generalize run (rd.step nix limit) p acts = r at hacc
  have hnodup : (r.1.held ++ r.2.flatMap lost).Nodup := hacc.nodup r.1.table.nodup
  constructor
  · intro hall
    refine List.eq_nil_iff_forall_not_mem.mpr fun fd hfd => ?_
    have hheld := hall fd (hacc.mem_iff.mpr (List.mem_append_right _ hfd))
    exact (List.nodup_append.mp hnodup).2.2 fd hheld fd hfd rfl
  · intro hnil fd hfd
    have hmem := hacc.mem_iff.mp hfd
    rwa [hnil, List.append_nil] at hmem

end Halmasuit.Lib.Rights
