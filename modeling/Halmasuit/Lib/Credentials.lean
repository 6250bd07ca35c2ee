import Mathlib.Data.Finset.BooleanAlgebra
import Mathlib.Data.Fintype.Basic

/-!
# The credentials of a process

What a process under Linux may do about its user, its groups and its capabilities: the calls of
`setresuid(2)`, `setresgid(2)`, `setfsuid(2)`, `setfsgid(2)`, `setgroups(2)`, `prctl(2)`,
`capset(2)` and `execve(2)`, with the rules of `credentials(7)` and `capabilities(7)`. Capability
sets are the elements of a Boolean algebra. The securebits other than `SECBIT_KEEP_CAPS` are off,
and there is one user namespace.

`setuid`, `setreuid` and their like reach no credentials that `setresuid` does not. A child of
`fork` starts with the credentials of its parent, so `Creds.run` over every list of calls is what a
process and its descendants can come to.

- `IsUser.execve`: a program executed by a user other than root under `no_new_privs` has no
  capability;
- **`Confined.run`**: nor does it or a descendant get one, or become another user;
- **`Barred.run`**: where the bounding set is empty, no capability is gained, `no_new_privs` or not,
  and every program starts with none (`Barred.execve`); the same for all tasks of a process together
  (`Barred.acts`).
-/

namespace Halmasuit.Lib.Credentials

/-- The capabilities that the calls below ask for, and those that come and go with the `fsuid`. -/
structure Asked (κ : Type) [BooleanAlgebra κ] where
  setuid : κ
  setgid : κ
  setpcap : κ
  files : κ
  setuid_ne : setuid ≠ ⊥
  setgid_ne : setgid ≠ ⊥

structure Creds (κ : Type) where
  ruid : UInt32
  euid : UInt32
  suid : UInt32
  fsuid : UInt32
  rgid : UInt32
  egid : UInt32
  sgid : UInt32
  fsgid : UInt32
  groups : List UInt32
  inheritable : κ
  permitted : κ
  effective : κ
  bounding : κ
  ambient : κ
  keepCaps : Bool
  noNewPrivs : Bool
  deriving DecidableEq, Repr

/-- The capabilities of a file. -/
structure FileCaps (κ : Type) where
  inheritable : κ
  permitted : κ
  effective : Bool

/-- A program: its owner and its group where it is set-user-ID and set-group-ID. -/
structure File (κ : Type) where
  setuid : Option UInt32
  setgid : Option UInt32
  caps : Option (FileCaps κ)

/-- A call about the credentials; `none` is the id `-1`, which leaves an id as it is. -/
inductive Call (κ : Type) where
  | setresuid (ruid euid suid : Option UInt32)
  | setresgid (rgid egid sgid : Option UInt32)
  | setfsuid (uid : UInt32)
  | setfsgid (gid : UInt32)
  | setgroups (groups : List UInt32)
  | setKeepCaps (on : Bool)
  | setNoNewPrivs
  | dropBounding (cap : κ)
  | raiseAmbient (cap : κ)
  | clearAmbient
  | capset (inheritable permitted effective : κ)
  | execve (file : File κ)

namespace Creds

variable {κ : Type}

/-- The uids as given. -/
def withUids (c : Creds κ) (ruid euid suid : Option UInt32) : Creds κ :=
  { c with
    ruid := ruid.getD c.ruid, euid := euid.getD c.euid, suid := suid.getD c.suid
    fsuid := euid.getD c.euid }

/-- The gids as given. -/
def withGids (c : Creds κ) (rgid egid sgid : Option UInt32) : Creds κ :=
  { c with
    rgid := rgid.getD c.rgid, egid := egid.getD c.egid, sgid := sgid.getD c.sgid
    fsgid := egid.getD c.egid }

/-- One of the real, the effective and the saved uid is root's. -/
def hasRoot (c : Creds κ) : Bool := c.ruid == 0 || c.euid == 0 || c.suid == 0

/-- What anybody may set a uid to. -/
def ownUid (c : Creds κ) (uid : UInt32) : Bool :=
  uid == c.ruid || uid == c.euid || uid == c.suid

/-- What anybody may set a gid to. -/
def ownGid (c : Creds κ) (gid : UInt32) : Bool :=
  gid == c.rgid || gid == c.egid || gid == c.sgid

variable [BooleanAlgebra κ]

/-- What a change of the uids does to the capabilities, from the credentials before. -/
def fixup (old c : Creds κ) : Creds κ :=
  let left := old.hasRoot && !c.hasRoot
  { c with
    permitted := if left && !c.keepCaps then ⊥ else c.permitted
    effective :=
      if left && !c.keepCaps then ⊥
      else if old.euid == 0 && !(c.euid == 0) then ⊥
      else if !(old.euid == 0) && c.euid == 0 then c.permitted
      else c.effective
    ambient := if left then ⊥ else c.ambient }

/-- The capabilities that a file brings. To root it brings all, unless it has some of its own and
is what makes the user root. -/
def fileCaps (c : Creds κ) (euid : UInt32) : Option (FileCaps κ) → FileCaps κ
  | some f => if c.ruid = 0 then ⟨⊤, ⊤, euid == 0 || f.effective⟩ else f
  | none => if c.ruid = 0 ∨ euid = 0 then ⟨⊤, ⊤, euid == 0⟩ else ⟨⊥, ⊥, false⟩

/-- The credentials of the new program. -/
def execve (c : Creds κ) (file : File κ) : Creds κ :=
  let euid := if c.noNewPrivs then c.euid else file.setuid.getD c.euid
  let egid := if c.noNewPrivs then c.egid else file.setgid.getD c.egid
  let given := if c.noNewPrivs then none else file.caps
  let f := c.fileCaps euid given
  let ambient :=
    if given.isSome || !(euid == c.euid) || !(egid == c.egid) then ⊥ else c.ambient
  let permitted := (c.inheritable ⊓ f.inheritable) ⊔ (f.permitted ⊓ c.bounding) ⊔ ambient
  { c with
    euid := euid, suid := euid, fsuid := euid
    egid := egid, sgid := egid, fsgid := egid
    permitted := permitted
    effective := if f.effective then permitted else ambient
    ambient := ambient
    keepCaps := false }

/-- What a change of the `fsuid` does to the capabilities in effect. -/
def fsFixup (files : κ) (c : Creds κ) (uid : UInt32) : κ :=
  if c.fsuid == 0 && !(uid == 0) then c.effective \ files
  else if !(c.fsuid == 0) && uid == 0 then c.effective ⊔ (c.permitted ⊓ files)
  else c.effective

variable [DecidableLE κ]

/-- A call, where the kernel allows it. -/
def apply (t : Asked κ) (c : Creds κ) : Call κ → Option (Creds κ)
  | .setresuid r e s =>
    if t.setuid ≤ c.effective ∨ (r.all c.ownUid && e.all c.ownUid && s.all c.ownUid) = true then
      some (fixup c (c.withUids r e s))
    else none
  | .setresgid r e s =>
    if t.setgid ≤ c.effective ∨ (r.all c.ownGid && e.all c.ownGid && s.all c.ownGid) = true then
      some (c.withGids r e s)
    else none
  | .setfsuid uid =>
    if t.setuid ≤ c.effective ∨ c.ownUid uid = true ∨ uid = c.fsuid then
      some { c with fsuid := uid, effective := c.fsFixup t.files uid }
    else none
  | .setfsgid gid =>
    if t.setgid ≤ c.effective ∨ c.ownGid gid = true ∨ gid = c.fsgid then
      some { c with fsgid := gid }
    else none
  | .setgroups gs => if t.setgid ≤ c.effective then some { c with groups := gs } else none
  | .setKeepCaps on => some { c with keepCaps := on }
  | .setNoNewPrivs => some { c with noNewPrivs := true }
  | .dropBounding cap =>
    if t.setpcap ≤ c.effective then some { c with bounding := c.bounding \ cap } else none
  | .raiseAmbient cap =>
    if cap ≤ c.permitted ⊓ c.inheritable then some { c with ambient := c.ambient ⊔ cap } else none
  | .clearAmbient => some { c with ambient := ⊥ }
  | .capset i p e =>
    if p ≤ c.permitted ∧ e ≤ p ∧ i ≤ c.inheritable ⊔ c.bounding ∧
        (t.setpcap ≤ c.effective ∨ i ≤ c.inheritable ⊔ c.permitted) then
      some { c with inheritable := i, permitted := p, effective := e, ambient := c.ambient ⊓ p ⊓ i }
    else none
  | .execve file => some (c.execve file)

/-- The credentials after some calls; one that is refused changes nothing. -/
def run (t : Asked κ) : Creds κ → List (Call κ) → Creds κ
  | c, [] => c
  | c, call :: calls => run t ((c.apply t call).getD c) calls

/-- What every call that is allowed keeps, every run keeps. -/
theorem run_keeps {t : Asked κ} {Inv : Creds κ → Prop}
    (h : ∀ c c' call, Inv c → c.apply t call = some c' → Inv c') (calls : List (Call κ)) :
    ∀ c, Inv c → Inv (c.run t calls) := by
  induction calls with
  | nil => exact fun c hc => hc
  | cons call calls ih =>
    intro c hc
    refine ih _ ?_
    cases heq : c.apply t call with
    | none => exact hc
    | some c' => exact h c c' call hc heq

end Creds

variable {κ : Type} [BooleanAlgebra κ] {t : Asked κ} {c c' : Creds κ}

/-! ## A user without capabilities -/

/-- A user and its groups, in every id. -/
structure IsUser (uid gid : UInt32) (groups : List UInt32) (c : Creds κ) : Prop where
  uids : c.ruid = uid ∧ c.euid = uid ∧ c.suid = uid ∧ c.fsuid = uid
  gids : c.rgid = gid ∧ c.egid = gid ∧ c.sgid = gid ∧ c.fsgid = gid
  groups : c.groups = groups

/-- A user, its groups, and nothing else to come. -/
structure Confined (uid gid : UInt32) (groups : List UInt32) (c : Creds κ) : Prop
    extends IsUser uid gid groups c where
  permitted : c.permitted = ⊥
  effective : c.effective = ⊥
  ambient : c.ambient = ⊥
  noNewPrivs : c.noNewPrivs = true

variable {uid gid : UInt32} {groups : List UInt32}

/-- A program is run as the same user: what would make it another is ignored. -/
theorem IsUser.execve (hu : uid ≠ 0) (h : IsUser uid gid groups c) (hamb : c.ambient = ⊥)
    (hnnp : c.noNewPrivs = true) (file : File κ) : Confined uid gid groups (c.execve file) := by
  obtain ⟨hr, he, hs, hf⟩ := h.uids
  obtain ⟨gr, ge, gs, gf⟩ := h.gids
  have hfile : c.fileCaps uid none = ⟨⊥, ⊥, false⟩ := by
    simp [Creds.fileCaps, hr, hu]
  refine ⟨⟨?_, ?_, h.groups⟩, ?_, ?_, ?_, hnnp⟩
  · simp [Creds.execve, hnnp, hr, he]
  · simp [Creds.execve, hnnp, gr, ge]
  · simp [Creds.execve, hnnp, he, hfile, hamb]
  · simp [Creds.execve, hnnp, he, hfile, hamb]
  · simp [Creds.execve, hnnp, hamb]

namespace Confined

theorem ownUid (h : Confined uid gid groups c) {u : UInt32} (hu : c.ownUid u = true) :
    u = uid := by
  obtain ⟨hr, he, hs, -⟩ := h.uids
  simpa [Creds.ownUid, hr, he, hs] using hu

theorem ownGid (h : Confined uid gid groups c) {g : UInt32} (hg : c.ownGid g = true) :
    g = gid := by
  obtain ⟨hr, he, hs, -⟩ := h.gids
  simpa [Creds.ownGid, hr, he, hs] using hg

theorem not_asked (h : Confined uid gid groups c) {cap : κ} (hcap : cap ≠ ⊥) :
    ¬ cap ≤ c.effective := by
  rw [h.effective]
  exact fun hle => hcap (le_bot_iff.mp hle)

theorem getD_eq {o : Option UInt32} {p : UInt32 → Bool} {u x : UInt32} (hp : o.all p = true)
    (hown : ∀ v, p v = true → v = u) (hx : x = u) : o.getD x = u := by
  cases o with
  | none => exact hx
  | some v => exact hown v hp

/-- Without a capability and away from root, a change of the uids changes nothing else. -/
theorem fixup {old : Creds κ} (hu : uid ≠ 0) (hold : Confined uid gid groups old)
    (h : Confined uid gid groups c) : Confined uid gid groups (old.fixup c) := by
  obtain ⟨hr, he, hs, -⟩ := hold.uids
  have hroot : old.hasRoot = false := by simp [Creds.hasRoot, hr, he, hs, hu]
  refine ⟨⟨h.uids, h.gids, h.groups⟩, ?_, ?_, ?_, h.noNewPrivs⟩
  · simp [Creds.fixup, hroot, h.permitted]
  · simp [Creds.fixup, hroot, h.permitted, h.effective]
  · simp [Creds.fixup, hroot, h.ambient]

variable [DecidableLE κ]

theorem apply (hu : uid ≠ 0) (h : Confined uid gid groups c) {call : Call κ}
    (hc : c.apply t call = some c') : Confined uid gid groups c' := by
  obtain ⟨hr, he, hs, hf⟩ := h.uids
  obtain ⟨gr, ge, gs, gf⟩ := h.gids
  cases call with
  | setresuid r e s =>
    simp only [Creds.apply, Option.ite_none_right_eq_some, Option.some.injEq] at hc
    obtain ⟨hc, rfl⟩ := hc
    have hown := hc.resolve_left (h.not_asked t.setuid_ne)
    simp only [Bool.and_eq_true] at hown
    obtain ⟨⟨hr', he'⟩, hs'⟩ := hown
    have own : ∀ v, c.ownUid v = true → v = uid := fun v => h.ownUid
    have huser : IsUser uid gid groups (c.withUids r e s) :=
      ⟨⟨getD_eq hr' own hr, getD_eq he' own he, getD_eq hs' own hs, getD_eq he' own he⟩,
        h.gids, h.groups⟩
    exact h.fixup hu ⟨huser, h.permitted, h.effective, h.ambient, h.noNewPrivs⟩
  | setresgid r e s =>
    simp only [Creds.apply, Option.ite_none_right_eq_some, Option.some.injEq] at hc
    obtain ⟨hc, rfl⟩ := hc
    have hown := hc.resolve_left (h.not_asked t.setgid_ne)
    simp only [Bool.and_eq_true] at hown
    obtain ⟨⟨hr', he'⟩, hs'⟩ := hown
    have own : ∀ v, c.ownGid v = true → v = gid := fun v => h.ownGid
    have huser : IsUser uid gid groups (c.withGids r e s) :=
      ⟨h.uids, ⟨getD_eq hr' own gr, getD_eq he' own ge, getD_eq hs' own gs, getD_eq he' own ge⟩,
        h.groups⟩
    exact ⟨huser, h.permitted, h.effective, h.ambient, h.noNewPrivs⟩
  | setfsuid u =>
    simp only [Creds.apply, Option.ite_none_right_eq_some, Option.some.injEq] at hc
    obtain ⟨hc, rfl⟩ := hc
    have hu' : u = uid := by
      rcases hc.resolve_left (h.not_asked t.setuid_ne) with hown | rfl
      · exact h.ownUid hown
      · exact hf
    have heff : c.fsFixup t.files u = ⊥ := by simp [Creds.fsFixup, h.effective, h.permitted]
    exact ⟨⟨⟨hr, he, hs, hu'⟩, h.gids, h.groups⟩, h.permitted, heff, h.ambient, h.noNewPrivs⟩
  | setfsgid g =>
    simp only [Creds.apply, Option.ite_none_right_eq_some, Option.some.injEq] at hc
    obtain ⟨hc, rfl⟩ := hc
    have hg' : g = gid := by
      rcases hc.resolve_left (h.not_asked t.setgid_ne) with hown | rfl
      · exact h.ownGid hown
      · exact gf
    exact ⟨⟨h.uids, ⟨gr, ge, gs, hg'⟩, h.groups⟩, h.permitted, h.effective, h.ambient,
      h.noNewPrivs⟩
  | setgroups g =>
    simp only [Creds.apply, if_neg (h.not_asked t.setgid_ne)] at hc
    cases hc
  | setKeepCaps on =>
    obtain rfl := Option.some.inj hc
    exact ⟨⟨h.uids, h.gids, h.groups⟩, h.permitted, h.effective, h.ambient, h.noNewPrivs⟩
  | setNoNewPrivs =>
    obtain rfl := Option.some.inj hc
    exact ⟨⟨h.uids, h.gids, h.groups⟩, h.permitted, h.effective, h.ambient, rfl⟩
  | dropBounding cap =>
    simp only [Creds.apply, Option.ite_none_right_eq_some, Option.some.injEq] at hc
    obtain ⟨-, rfl⟩ := hc
    exact ⟨⟨h.uids, h.gids, h.groups⟩, h.permitted, h.effective, h.ambient, h.noNewPrivs⟩
  | raiseAmbient cap =>
    simp only [Creds.apply, Option.ite_none_right_eq_some, Option.some.injEq] at hc
    obtain ⟨hle, rfl⟩ := hc
    rw [h.permitted, bot_inf_eq, le_bot_iff] at hle
    refine ⟨⟨h.uids, h.gids, h.groups⟩, h.permitted, h.effective, ?_, h.noNewPrivs⟩
    simp [h.ambient, hle]
  | clearAmbient =>
    obtain rfl := Option.some.inj hc
    exact ⟨⟨h.uids, h.gids, h.groups⟩, h.permitted, h.effective, rfl, h.noNewPrivs⟩
  | capset i p e =>
    simp only [Creds.apply, Option.ite_none_right_eq_some, Option.some.injEq] at hc
    obtain ⟨⟨hp, hep, -⟩, rfl⟩ := hc
    rw [h.permitted, le_bot_iff] at hp
    rw [hp, le_bot_iff] at hep
    refine ⟨⟨h.uids, h.gids, h.groups⟩, hp, hep, ?_, h.noNewPrivs⟩
    simp [h.ambient]
  | execve file =>
    obtain rfl := Option.some.inj hc
    exact h.toIsUser.execve hu h.ambient h.noNewPrivs file

/-- **Neither the process nor a descendant gets out**, whatever it calls and executes. -/
theorem run (hu : uid ≠ 0) (h : Confined uid gid groups c) (calls : List (Call κ)) :
    Confined uid gid groups (c.run t calls) :=
  Creds.run_keeps (fun _ _ _ h hc => apply hu h hc) calls c h

end Confined

/-! ## No capability to gain -/

/-- No capability beyond `kept`, and none to gain by executing a program. -/
structure Barred (kept : κ) (c : Creds κ) : Prop where
  bounding : c.bounding = ⊥
  inheritable : c.inheritable = ⊥
  ambient : c.ambient = ⊥
  permitted : c.permitted ≤ kept
  effective : c.effective ≤ kept

namespace Barred

variable {kept : κ}

/-- A program starts without capabilities, whoever owns it and whatever is on its file. -/
theorem execve (h : Barred kept c) (file : File κ) : Barred ⊥ (c.execve file) := by
  have hamb : (c.execve file).ambient = ⊥ := by simp [Creds.execve, h.ambient]
  have hperm : (c.execve file).permitted = ⊥ := by
    simp [Creds.execve, h.ambient, h.inheritable, h.bounding]
  refine ⟨h.bounding, h.inheritable, hamb, le_bot_iff.mpr hperm, ?_⟩
  simp [Creds.execve, h.ambient, h.inheritable, h.bounding]

theorem mono {kept' : κ} (hle : kept ≤ kept') (h : Barred kept c) : Barred kept' c :=
  ⟨h.bounding, h.inheritable, h.ambient, h.permitted.trans hle, h.effective.trans hle⟩

theorem fixup {old : Creds κ} (h : Barred kept c) : Barred kept (old.fixup c) := by
  refine ⟨h.bounding, h.inheritable, ?_, ?_, ?_⟩
  · simp [Creds.fixup, h.ambient]
  all_goals
    dsimp only [Creds.fixup]
    generalize (old.hasRoot && !c.hasRoot) = left
    split_ifs
  all_goals first | exact bot_le | exact h.permitted | exact h.effective

variable [DecidableLE κ]

theorem apply (h : Barred kept c) {call : Call κ} (hc : c.apply t call = some c') :
    Barred kept c' := by
  cases call with
  | setresuid r e s =>
    simp only [Creds.apply, Option.ite_none_right_eq_some, Option.some.injEq] at hc
    obtain ⟨-, rfl⟩ := hc
    exact fixup ⟨h.bounding, h.inheritable, h.ambient, h.permitted, h.effective⟩
  | setresgid r e s =>
    simp only [Creds.apply, Option.ite_none_right_eq_some, Option.some.injEq] at hc
    obtain ⟨-, rfl⟩ := hc
    exact ⟨h.bounding, h.inheritable, h.ambient, h.permitted, h.effective⟩
  | setfsuid u =>
    simp only [Creds.apply, Option.ite_none_right_eq_some, Option.some.injEq] at hc
    obtain ⟨-, rfl⟩ := hc
    have heff : c.fsFixup t.files u ≤ kept := by
      unfold Creds.fsFixup
      split_ifs
      · exact sdiff_le.trans h.effective
      · exact sup_le h.effective (inf_le_left.trans h.permitted)
      · exact h.effective
    exact ⟨h.bounding, h.inheritable, h.ambient, h.permitted, heff⟩
  | setfsgid g =>
    simp only [Creds.apply, Option.ite_none_right_eq_some, Option.some.injEq] at hc
    obtain ⟨-, rfl⟩ := hc
    exact ⟨h.bounding, h.inheritable, h.ambient, h.permitted, h.effective⟩
  | setgroups g =>
    simp only [Creds.apply, Option.ite_none_right_eq_some, Option.some.injEq] at hc
    obtain ⟨-, rfl⟩ := hc
    exact ⟨h.bounding, h.inheritable, h.ambient, h.permitted, h.effective⟩
  | setKeepCaps on =>
    obtain rfl := Option.some.inj hc
    exact ⟨h.bounding, h.inheritable, h.ambient, h.permitted, h.effective⟩
  | setNoNewPrivs =>
    obtain rfl := Option.some.inj hc
    exact ⟨h.bounding, h.inheritable, h.ambient, h.permitted, h.effective⟩
  | dropBounding cap =>
    simp only [Creds.apply, Option.ite_none_right_eq_some, Option.some.injEq] at hc
    obtain ⟨-, rfl⟩ := hc
    exact ⟨by simp [h.bounding], h.inheritable, h.ambient, h.permitted, h.effective⟩
  | raiseAmbient cap =>
    simp only [Creds.apply, Option.ite_none_right_eq_some, Option.some.injEq] at hc
    obtain ⟨hle, rfl⟩ := hc
    rw [h.inheritable, inf_bot_eq, le_bot_iff] at hle
    exact ⟨h.bounding, h.inheritable, by simp [h.ambient, hle], h.permitted, h.effective⟩
  | clearAmbient =>
    obtain rfl := Option.some.inj hc
    exact ⟨h.bounding, h.inheritable, rfl, h.permitted, h.effective⟩
  | capset i p e =>
    simp only [Creds.apply, Option.ite_none_right_eq_some, Option.some.injEq] at hc
    obtain ⟨⟨hp, hep, hi, -⟩, rfl⟩ := hc
    rw [h.inheritable, h.bounding, bot_sup_eq, le_bot_iff] at hi
    exact ⟨h.bounding, hi, by simp [h.ambient], hp.trans h.permitted,
      (hep.trans hp).trans h.permitted⟩
  | execve file =>
    obtain rfl := Option.some.inj hc
    exact (h.execve file).mono bot_le

/-- **Nothing is gained**, whatever the process calls and executes. -/
theorem run (h : Barred kept c) (calls : List (Call κ)) : Barred kept (c.run t calls) :=
  Creds.run_keeps (fun _ _ _ h hc => apply h hc) calls c h

end Barred

/-! ## Threads and children -/

/-- What one of several tasks does: it makes another, which has its credentials, or a call. -/
inductive Act (κ : Type) where
  | spawn (i : Nat)
  | call (i : Nat) (call : Call κ)

section
variable [DecidableLE κ]

/-- The tasks after an act. -/
def act (t : Asked κ) (tasks : List (Creds κ)) : Act κ → List (Creds κ)
  | .spawn i => tasks ++ tasks[i]?.toList
  | .call i call => tasks.modify i fun c => (c.apply t call).getD c

/-- What every task has that each of its calls keeps, every task has after any acts. -/
theorem acts_keep {Inv : Creds κ → Prop}
    (h : ∀ c c' call, Inv c → c.apply t call = some c' → Inv c') (acts : List (Act κ)) :
    ∀ tasks : List (Creds κ), (∀ c ∈ tasks, Inv c) → ∀ c ∈ acts.foldl (act t) tasks, Inv c := by
  induction acts with
  | nil => exact fun tasks hall => hall
  | cons a acts ih =>
    intro tasks hall
    refine ih _ fun c hc => ?_
    cases a with
    | spawn i =>
      rcases List.mem_append.mp hc with hc | hc
      · exact hall c hc
      · exact hall c (List.mem_of_getElem? (Option.mem_toList.mp hc))
    | call i call =>
      obtain ⟨j, hj, rfl⟩ := List.getElem_of_mem hc
      rw [act, List.length_modify] at hj
      simp only [act, List.getElem_modify]
      have hat := hall _ (List.getElem_mem hj)
      split
      · cases heq : tasks[j].apply t call with
        | none => exact hat
        | some c' => exact h _ c' call hat heq
      · exact hat

/-- **No task gains anything**, whatever they all do. -/
theorem Barred.acts {kept : κ} {tasks : List (Creds κ)} (h : ∀ c ∈ tasks, Barred kept c)
    (acts : List (Act κ)) : ∀ c ∈ acts.foldl (act t) tasks, Barred kept c :=
  acts_keep (fun _ _ _ h hc => Barred.apply h hc) acts tasks h

end

/-! ## The capabilities of Linux -/

/-- Capabilities go up to `CAP_CHECKPOINT_RESTORE`. -/
abbrev CapSet : Type := Finset (Fin 41)

/-- `CAP_SETUID`, `CAP_SETGID` and `CAP_SETPCAP`, and the kernel's `CAP_FS_SET`. -/
def linux : Asked CapSet :=
  ⟨{7}, {6}, {8}, {0, 1, 2, 3, 4, 9, 27, 32}, by decide, by decide⟩

/-- An id as an argument of `setresuid` and `setresgid`. -/
def idArg (id : UInt32) : Option UInt32 := if id = 4294967295 then none else some id

/-- A process of root with every capability. -/
def root : Creds CapSet :=
  ⟨0, 0, 0, 0, 0, 0, 0, 0, [], ∅, Finset.univ, Finset.univ, Finset.univ, ∅, false, false⟩

end Halmasuit.Lib.Credentials
