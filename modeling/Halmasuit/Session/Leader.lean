import Halmasuit.Lib.Text
import Halmasuit.Lib.Utf8
import Halmasuit.Session.Bracketing
import Halmasuit.Session.PamConv

/-!
# Who the session leader is

The spec and the groups that `run_session` hands to `spawn_session_leader`, with `validate`,
`sanitize_env`, `dedup_push` and `user_groups` (`session_leader.rs` 108–235), and the environment
between libpam and the fork: `Pam::getenvlist` and `split_env_pair` (`pam_ffi.rs` 121–128, 526–587).
The greeter's variables go into the PAM handle as `NAME=VALUE`, PAM modules add theirs, and what
libpam lists is bytes, which are read lossily, cut at the first `=` and filtered by name.

- `toStringLossy_utf8`: what is in UTF-8 is read as it is;
- `spawned_iff`: when a leader is forked, and from what;
- **`leader_vetted`**: the identity, the command, the environment and the groups of a leader.
  A value that is not in UTF-8 is not what PAM had (`lossy_pair_survives`).
-/

namespace Halmasuit.Session

open Halmasuit.Lib
open Halmasuit.Lib.Text
open Halmasuit.Lib.Utf8 (utf8 utf8_cons utf8_append)
open Halmasuit.SessionIpc
open Halmasuit.Broker (TransportError WorkerOutcome ParentMessage send)
open Halmasuit.Session.PamConv (toStringLossy lossyChars continuation continued)

/-! ## Texts that are read lossily -/

theorem toNat_ofNat_of_lt {n : Nat} (h : n < 256) : (UInt8.ofNat n).toNat = n := by
  rw [UInt8.toNat_ofNat', Nat.mod_eq_of_lt h]

/-- A byte that continues a character, in the range asked for. -/
theorem continued_cons {k q : Nat} {lo hi : UInt8} {bs : List UInt8} (hq : q < 64)
    (hlo : lo.toNat ≤ q + 0x80) (hhi : q + 0x80 ≤ hi.toNat) :
    continued (k + 1) lo hi (UInt8.ofNat (q + 0x80) :: bs) = 1 + continued k 0x80 0xbf bs := by
  have hb : (UInt8.ofNat (q + 0x80)).toNat = q + 0x80 := toNat_ofNat_of_lt (by omega)
  rw [continued, if_pos]
  rw [UInt8.le_iff_toNat_le, UInt8.le_iff_toNat_le, hb]
  exact ⟨hlo, hhi⟩

theorem continuation_two : ∀ q < 32, 2 ≤ q →
    continuation (UInt8.ofNat (q + 0xc0)) = some (1, 0x80, 0xbf) := by decide

theorem continuation_three : ∀ q < 16, continuation (UInt8.ofNat (q + 0xe0)) =
    some (2, if q = 0 then 0xa0 else 0x80, if q = 13 then 0x9f else 0xbf) := by decide

theorem continuation_four : ∀ q < 5, continuation (UInt8.ofNat (q + 0xf0)) =
    some (3, if q = 0 then 0x90 else 0x80, if q = 4 then 0x8f else 0xbf) := by decide

/-- A byte that starts a character of several, and the bytes that continue it. -/
theorem lossyChars_sequence {fuel k : Nat} {b lo hi : UInt8} {tail bs : List UInt8} {c : Char}
    (hb : 0x80 ≤ b.toNat) (hc : continuation b = some (k, lo, hi)) (hk : tail.length = k)
    (hcont : continued k lo hi (tail ++ bs) = k)
    (hval : tail.foldl (fun n c => 64 * n + c.toNat % 64) (b.toNat % 2 ^ (6 - k)) = c.toNat) :
    lossyChars (fuel + 1) (b :: (tail ++ bs)) = c :: lossyChars fuel bs := by
  have hlt : ¬ b < 0x80 := by
    rw [UInt8.lt_iff_toNat_lt]
    exact Nat.not_lt.mpr hb
  rw [lossyChars, if_neg hlt]
  simp only [hc]
  rw [if_pos hcont, List.take_left' hk, List.drop_left' hk, hval, Char.ofNat_toNat]

/-- A byte that continues a character, anywhere but right after its first. -/
theorem continued_tail {k q : Nat} {bs : List UInt8} (hq : q < 64) :
    continued (k + 1) 0x80 0xbf (UInt8.ofNat (q + 0x80) :: bs)
      = 1 + continued k 0x80 0xbf bs := by
  refine continued_cons hq (Nat.le_add_left _ _) ?_
  change q + 128 ≤ 191
  omega

theorem tail_value (q : Nat) : (UInt8.ofNat (q % 64 + 0x80)).toNat % 64 = q % 64 := by
  rw [toNat_ofNat_of_lt (by omega)]
  omega

section
variable {fuel : Nat} {c : Char} {bs : List UInt8}

theorem lossyChars_two (h : 0x7f < c.toNat) (h' : c.toNat ≤ 0x7ff) :
    lossyChars (fuel + 1) ([UInt8.ofNat (c.toNat / 64 % 32 + 0xc0),
      UInt8.ofNat (c.toNat % 64 + 0x80)] ++ bs) = c :: lossyChars fuel bs := by
  have hb : (UInt8.ofNat (c.toNat / 64 % 32 + 0xc0)).toNat = c.toNat / 64 % 32 + 0xc0 :=
    toNat_ofNat_of_lt (by omega)
  refine @lossyChars_sequence fuel 1 _ _ _ [_] bs c (by omega)
    (continuation_two _ (by omega) (by omega)) rfl ?_ ?_
  · rw [List.singleton_append, continued_tail (by omega)]
    rfl
  · simp only [List.foldl_cons, List.foldl_nil, tail_value, hb]
    omega

/-- An overlong form or a surrogate would be out of the range of the second byte. -/
theorem lossyChars_three (h : 0x7ff < c.toNat) (h' : c.toNat ≤ 0xffff)
    (hvalid : c.toNat < 0xd800 ∨ 0xdfff < c.toNat) :
    lossyChars (fuel + 1) ([UInt8.ofNat (c.toNat / 4096 % 16 + 0xe0),
      UInt8.ofNat (c.toNat / 64 % 64 + 0x80), UInt8.ofNat (c.toNat % 64 + 0x80)] ++ bs)
      = c :: lossyChars fuel bs := by
  have hb : (UInt8.ofNat (c.toNat / 4096 % 16 + 0xe0)).toNat = c.toNat / 4096 % 16 + 0xe0 :=
    toNat_ofNat_of_lt (by omega)
  refine @lossyChars_sequence fuel 2 _ _ _ [_, _] bs c (by omega)
    (continuation_three _ (by omega)) rfl ?_ ?_
  · rw [List.cons_append, continued_cons (by omega), List.singleton_append,
      continued_tail (by omega)]
    · rfl
    · split
      · change 160 ≤ c.toNat / 64 % 64 + 128
        omega
      · change 128 ≤ c.toNat / 64 % 64 + 128
        omega
    · split
      · change c.toNat / 64 % 64 + 128 ≤ 159
        omega
      · change c.toNat / 64 % 64 + 128 ≤ 191
        omega
  · simp only [List.foldl_cons, List.foldl_nil, tail_value, hb]
    omega

theorem lossyChars_four (h : 0xffff < c.toNat) (h' : c.toNat < 0x110000) :
    lossyChars (fuel + 1) ([UInt8.ofNat (c.toNat / 262144 % 8 + 0xf0),
      UInt8.ofNat (c.toNat / 4096 % 64 + 0x80), UInt8.ofNat (c.toNat / 64 % 64 + 0x80),
      UInt8.ofNat (c.toNat % 64 + 0x80)] ++ bs) = c :: lossyChars fuel bs := by
  have hb : (UInt8.ofNat (c.toNat / 262144 % 8 + 0xf0)).toNat = c.toNat / 262144 % 8 + 0xf0 :=
    toNat_ofNat_of_lt (by omega)
  refine @lossyChars_sequence fuel 3 _ _ _ [_, _, _] bs c (by omega)
    (continuation_four _ (by omega)) rfl ?_ ?_
  · rw [List.cons_append, continued_cons (by omega), List.cons_append, continued_tail (by omega),
      List.singleton_append, continued_tail (by omega)]
    · rfl
    · split
      · change 144 ≤ c.toNat / 4096 % 64 + 128
        omega
      · change 128 ≤ c.toNat / 4096 % 64 + 128
        omega
    · split
      · change c.toNat / 4096 % 64 + 128 ≤ 143
        omega
      · change c.toNat / 4096 % 64 + 128 ≤ 191
        omega
  · simp only [List.foldl_cons, List.foldl_nil, tail_value, hb]
    omega

/-- A character that was written in UTF-8 is read back. -/
theorem lossyChars_encode :
    lossyChars (fuel + 1) (String.utf8EncodeChar c ++ bs) = c :: lossyChars fuel bs := by
  have hvalid : c.toNat < 0xd800 ∨ 0xdfff < c.toNat ∧ c.toNat < 0x110000 := c.valid
  unfold String.utf8EncodeChar
  simp only [show c.val.toNat = c.toNat from rfl]
  by_cases h1 : c.toNat ≤ 0x7f
  · have hb : (UInt8.ofNat c.toNat).toNat = c.toNat := toNat_ofNat_of_lt (by omega)
    have hlt : UInt8.ofNat c.toNat < 0x80 := by
      rw [UInt8.lt_iff_toNat_lt, hb]
      exact Nat.lt_succ_of_le h1
    rw [if_pos h1, List.singleton_append, lossyChars, if_pos hlt, hb, Char.ofNat_toNat]
  rw [if_neg h1]
  by_cases h2 : c.toNat ≤ 0x7ff
  · rw [if_pos h2]
    exact lossyChars_two (by omega) h2
  rw [if_neg h2]
  by_cases h3 : c.toNat ≤ 0xffff
  · rw [if_pos h3]
    exact lossyChars_three (by omega) h3 (by omega)
  · rw [if_neg h3]
    exact lossyChars_four (by omega) (by omega)

end

theorem lossyChars_utf8 {fuel : Nat} {t : List Char} (h : t.length ≤ fuel) :
    lossyChars fuel (utf8 t) = t := by
  induction t generalizing fuel with
  | nil => cases fuel <;> rfl
  | cons c t ih =>
    obtain ⟨fuel, rfl⟩ := Nat.exists_eq_add_one_of_ne_zero (Nat.ne_zero_of_lt h)
    rw [utf8_cons, lossyChars_encode, ih (Nat.le_of_succ_le_succ h)]

theorem length_le_utf8 (t : List Char) : t.length ≤ (utf8 t).length := by
  induction t with
  | nil => rfl
  | cons c t ih =>
    have hpos : 0 < (String.utf8EncodeChar c).length := by
      rw [String.length_utf8EncodeChar]
      exact c.utf8Size_pos
    rw [utf8_cons, List.length_append, List.length_cons]
    omega

/-- A text in UTF-8 is read as it is. -/
theorem toStringLossy_utf8 (t : List Char) : toStringLossy (utf8 t) = String.ofList t := by
  rw [toStringLossy, lossyChars_utf8 (length_le_utf8 t)]

/-! ## The environment -/

/-- `split_env_pair` of `pam_ffi.rs`. -/
def splitEnvPair (entry : String) : Option (String × String) :=
  (splitOnce '=' entry.toList).map fun kv => (String.ofList kv.1, String.ofList kv.2)

/-- `Pam::getenvlist`: the entries are C strings, and the list is null when libpam fails. -/
def getenvlist (list : Option (List (List UInt8))) : Option (List (String × String)) :=
  list.map fun entries => entries.filterMap fun entry => splitEnvPair (toStringLossy entry)

/-- A world whose PAM environment is the list. -/
def World.withPamEnv (w : World) (list : Option (List (List UInt8))) : World :=
  { w with getEnvList := getenvlist list }

/-- The pair is what stands around the first `=` of an entry, exactly so when that is UTF-8. -/
structure PairOf (entry : List UInt8) (kv : String × String) : Prop where
  name : '=' ∉ kv.1.toList
  text : toStringLossy entry = kv.1 ++ "=" ++ kv.2
  exactly : ∀ t, entry = utf8 t → entry = utf8 (kv.1 ++ "=" ++ kv.2).toList

theorem splitEnvPair_eq_some {entry : String} {kv : String × String} :
    splitEnvPair entry = some kv ↔ entry = kv.1 ++ "=" ++ kv.2 ∧ '=' ∉ kv.1.toList := by
  unfold splitEnvPair
  simp only [Option.map_eq_some_iff, Prod.exists, splitOnce_eq_some]
  constructor
  · rintro ⟨k, v, ⟨hs, hk⟩, rfl⟩
    refine ⟨String.toList_inj.mp ?_, by simpa using hk⟩
    simp [hs]
  · rintro ⟨rfl, hk⟩
    exact ⟨kv.1.toList, kv.2.toList, ⟨by simp, hk⟩, by simp⟩

theorem pairOf_of_split {entry : List UInt8} {kv : String × String}
    (h : splitEnvPair (toStringLossy entry) = some kv) : PairOf entry kv := by
  obtain ⟨htext, hname⟩ := splitEnvPair_eq_some.mp h
  refine ⟨hname, htext, ?_⟩
  rintro t rfl
  rw [toStringLossy_utf8] at htext
  rw [← htext, String.toList_ofList]

/-! ## Groups -/

/-- A group is pushed behind those that are there, unless it is one of them. -/
theorem dedupPush_keeps {out : List UInt32} (h : out.Nodup) (g : UInt32) :
    out <+: dedupPush out g ∧ (dedupPush out g).Nodup ∧
      ∀ x, x ∈ dedupPush out g ↔ x ∈ out ∨ x = g := by
  unfold dedupPush
  by_cases hg : g ∈ out
  · rw [if_pos hg]
    refine ⟨List.prefix_refl out, h, fun x => ⟨Or.inl, ?_⟩⟩
    rintro (hx | rfl)
    · exact hx
    · exact hg
  · rw [if_neg hg]
    refine ⟨List.prefix_append out [g], ?_, by simp⟩
    rw [List.nodup_append]
    refine ⟨h, by simp, ?_⟩
    rintro x hx y hy rfl
    obtain rfl := List.mem_singleton.mp hy
    exact hg hx

/-- Every group of the list is pushed once, behind those that are there. -/
theorem foldl_dedupPush (base : List UInt32) {out : List UInt32} (h : out.Nodup) :
    out <+: base.foldl dedupPush out ∧ (base.foldl dedupPush out).Nodup ∧
      ∀ x, x ∈ base.foldl dedupPush out ↔ x ∈ out ∨ x ∈ base := by
  induction base generalizing out with
  | nil => simp [h]
  | cons g base ih =>
    obtain ⟨hpre, hnodup, hmem⟩ := dedupPush_keeps h g
    obtain ⟨hpre', hnodup', hmem'⟩ := ih hnodup
    refine ⟨hpre.trans hpre', hnodup', fun x => ?_⟩
    rw [List.foldl_cons, hmem', hmem, List.mem_cons, or_assoc]

/-! ## What is asked of a leader -/

/-- The identity a report names is that of the spec. -/
def Reports (spec : SessionSpec) : Act → Prop
  | .sent (.outcome (.authOk username uid gid)) =>
    username = spec.username ∧ uid = spec.uid ∧ gid = spec.gid
  | .sent (.outcome (.sessionOpened username uid gid)) =>
    username = spec.username ∧ uid = spec.uid ∧ gid = spec.gid
  | _ => True

/-- The spec and the groups of a leader that is forked in the run. -/
structure Vetted (w : World) (list : Option (List (List UInt8))) (tr : List Act)
    (spec : SessionSpec) (groups : List UInt32) : Prop where
  authOk : .sent (.outcome (.authOk spec.username spec.uid spec.gid)) ∈ tr
  reports : ∀ a ∈ tr, Reports spec a
  floor : uidMin ≤ spec.uid ∧ uidMin ≤ spec.gid
  sentinel : spec.uid ≠ 4294967295 ∧ spec.gid ≠ 4294967295
  passwd : w.checks spec.username = some (spec.uid, spec.gid)
  command : ∃ env, w.recvSpec = .ok (.startSession spec.cmd env)
  absolute : ∃ first, spec.cmd.head? = some first ∧ first.startsWith "/" = true
  allowed : ∀ kv ∈ spec.env, kv.1 ∈ envAllowlist ∨ kv.1.startsWith "LC_" = true
  pairs : ∃ entries, list = some entries ∧ (∀ kv ∈ spec.env, ∃ entry ∈ entries, PairOf entry kv) ∧
    spec.env = sanitizeEnv (entries.filterMap fun entry => splitEnvPair (toStringLossy entry))
  groups : ∃ base, w.getGroupList spec.username spec.gid = some base ∧
    groups.head? = some spec.gid ∧ groups.Nodup ∧ ∀ g, g ∈ groups ↔ g = spec.gid ∨ g ∈ base

/-- The run forks a leader with the spec and the groups: it does so when only that fork can
succeed. -/
def World.Forks (w : World) (service username : String) (spec : SessionSpec)
    (groups : List UInt32) : Prop :=
  .spawned 0 ∈ (runSession { w with
    spawnLeader := fun s g => if s = spec ∧ g = groups then some 0 else none }
    service username).events

/-- What a run has found out when it gets to the fork. -/
structure World.Launches (w : World) (service username : String) (id : ResolvedIdentity)
    (cmd : List String) (env pamEnv : List (String × String)) (spec : SessionSpec)
    (groups : List UInt32) : Prop where
  establishes : w.Establishes service username id
  authOk : send w.sendAuthOk (WorkerOutcome.authOk id.username id.uid id.gid).toVec = .ok ()
  recv : w.recvSpec = .ok (.startSession cmd env)
  putEnv : ∀ kv ∈ env, hasNul (kv.1 ++ "=" ++ kv.2) = false ∧
    w.putEnv (kv.1 ++ "=" ++ kv.2) = pamSuccess
  openSession : w.openSession.ok = true
  getEnv : w.getEnvList = some pamEnv
  spec : validate w.checks id cmd pamEnv = .ok spec
  groups : userGroups w id.username id.gid = .ok groups

/-! ## The fork -/

section
variable {w : World} {service username : String} {p : Pid}

theorem not_spawned_of_wire {acts : List Act} (h : ∀ a ∈ acts, isWire a = true) :
    Act.spawned p ∉ acts := by
  intro hp
  cases h _ hp

theorem not_spawned_pamBracket {c : PamCall} {act : Bool → Act} {e : Int32 → SessionError}
    (h : ∀ ok, act ok ≠ .spawned p) : Act.spawned p ∉ (pamBracket c act e).events := by
  unfold pamBracket
  simp only [List.mem_append, List.mem_singleton, not_or]
  exact ⟨not_spawned_of_wire (wire_acts c), (h c.ok).symm⟩

theorem spawned_runLeader {id : ResolvedIdentity} {spec : SessionSpec} {groups : List UInt32} :
    .spawned p ∈ (runLeader w id spec groups).events ↔ w.spawnLeader spec groups = some p := by
  unfold runLeader
  cases w.spawnLeader spec groups with
  | none => simp
  | some leader =>
    have hopened := not_spawned_of_wire (p := p)
      (wire_sendOutcome w.sendOpened (.sessionOpened id.username id.uid id.gid))
    cases w.wait with
    | none => simp [Emit.mem_bind, hopened, eq_comm]
    | some status => simp [Emit.mem_bind, hopened, eq_comm]

theorem spawned_runLogin {id : ResolvedIdentity} :
    .spawned p ∈ (runLogin w id).events ↔
      send w.sendAuthOk (WorkerOutcome.authOk id.username id.uid id.gid).toVec = .ok () ∧
      ∃ cmd, (readSpec w).result = .ok cmd ∧ w.openSession.ok = true ∧
      ∃ pamEnv, w.getEnvList = some pamEnv ∧
      ∃ spec, validate w.checks id cmd pamEnv = .ok spec ∧
      ∃ groups, userGroups w id.username id.gid = .ok groups ∧
        w.spawnLeader spec groups = some p := by
  have hsent := not_spawned_of_wire (p := p)
    (wire_sendOutcome w.sendAuthOk (.authOk id.username id.uid id.gid))
  have hread := not_spawned_of_wire (p := p) (wire_readSpec w)
  have hopen : Act.spawned p ∉ (pamBracket w.openSession .openSession
      fun status => SessionError.pam (.openSession status)).events :=
    not_spawned_pamBracket (by simp)
  have hclose : Act.spawned p ∉ (pamBracket w.closeSession .closeSession
      fun status => SessionError.pam (.closeSession status)).events :=
    not_spawned_pamBracket (by simp)
  unfold runLogin
  simp only [Emit.mem_bind, hsent, hread, hopen, hclose, sendOutcome_ok, pamBracket_ok,
    Emit.lift_events, Emit.lift_result, Emit.pure_events, getEnv_ok, mapError_ok,
    spawned_runLeader, List.not_mem_nil, false_or, or_false, and_false, exists_false, exists_const]

theorem spawned_runHandle :
    .spawned p ∈ (runHandle w).events ↔ ∃ id, (runAuthPhase w).result = .ok id ∧
      w.setCred.ok = true ∧ .spawned p ∈ (runLogin w id).events := by
  have hauth := not_spawned_of_wire (p := p) (wire_runAuthPhase w)
  have hcred : Act.spawned p ∉ (pamBracket w.setCred .setCredEstablished
      fun status => SessionError.pam (.setCred status)).events :=
    not_spawned_pamBracket (by simp)
  have hdelete : Act.spawned p ∉ (pamBracket w.setCredDeleted .setCredDeleted
      fun status => SessionError.pam (.setCred status)).events :=
    not_spawned_pamBracket (by simp)
  have hended (status : WaitStatus) : Act.spawned p ∉
      (sendOutcome w.sendEnded (.sessionEnded status.outcome)).events :=
    not_spawned_of_wire (wire_sendOutcome _ _)
  unfold runHandle
  simp [Emit.mem_bind, hauth, hcred, hdelete, hended, pamBracket_ok]

/-- When a leader is forked, and from what. -/
theorem spawned_iff : .spawned p ∈ (runSession w service username).events ↔
    ∃ id cmd env pamEnv spec groups,
      w.Launches service username id cmd env pamEnv spec groups ∧
        w.spawnLeader spec groups = some p := by
  constructor
  · intro h
    unfold runSession at h
    by_cases hnul : (hasNul service || hasNul username) = true
    · simp [hnul] at h
    rw [if_neg hnul] at h
    by_cases hstart : w.start = pamSuccess
    swap
    · simp [hstart] at h
    rw [if_neg (by simpa using hstart)] at h
    have hhandle : .spawned p ∈ (runHandle w).events := by simpa using h
    obtain ⟨id, hid, hcred, hlogin⟩ := spawned_runHandle.mp hhandle
    obtain ⟨hsend, cmd, hread, hopen, pamEnv, hget, spec, hspec, groups, hgroups, hspawn⟩ :=
      spawned_runLogin.mp hlogin
    obtain ⟨hauth, hacct, hident⟩ := runAuthPhase_ok.mp hid
    obtain ⟨env, hrecv, henv⟩ := readSpec_ok.mp hread
    have hnul' : hasNul service = false ∧ hasNul username = false := by simpa using hnul
    exact ⟨id, cmd, env, pamEnv, spec, groups,
      ⟨⟨hnul'.1, hnul'.2, hstart, hauth, hacct, hident, hcred⟩, hsend, hrecv, henv, hopen, hget,
        hspec, hgroups⟩, hspawn⟩
  · rintro ⟨id, cmd, env, pamEnv, spec, groups, h, hspawn⟩
    have hhandle : .spawned p ∈ (runHandle w).events :=
      spawned_runHandle.mpr ⟨id,
        runAuthPhase_ok.mpr ⟨h.establishes.authenticate, h.establishes.acctMgmt,
          h.establishes.identity⟩, h.establishes.setCred,
        spawned_runLogin.mpr ⟨h.authOk, cmd, readSpec_ok.mpr ⟨env, h.recv, h.putEnv⟩,
          h.openSession, pamEnv, h.getEnv, spec, h.spec, groups, h.groups, hspawn⟩⟩
    unfold runSession
    simp [h.establishes.service, h.establishes.username, h.establishes.start, hhandle]

/-- What a run finds out does not depend on the fork. -/
theorem World.Launches.congr_spawnLeader (f : SessionSpec → List UInt32 → Option Pid)
    {id : ResolvedIdentity} {cmd : List String} {env pamEnv : List (String × String)}
    {spec : SessionSpec} {groups : List UInt32} :
    { w with spawnLeader := f }.Launches service username id cmd env pamEnv spec groups ↔
      w.Launches service username id cmd env pamEnv spec groups := by
  constructor
  · rintro ⟨⟨h1, h2, h3, h4, h5, h6, h7⟩, h8, h9, h10, h11, h12, h13, h14⟩
    exact ⟨⟨h1, h2, h3, h4, h5, h6, h7⟩, h8, h9, h10, h11, h12, h13, h14⟩
  · rintro ⟨⟨h1, h2, h3, h4, h5, h6, h7⟩, h8, h9, h10, h11, h12, h13, h14⟩
    exact ⟨⟨h1, h2, h3, h4, h5, h6, h7⟩, h8, h9, h10, h11, h12, h13, h14⟩

theorem forks_iff {spec : SessionSpec} {groups : List UInt32} :
    w.Forks service username spec groups ↔ ∃ id cmd env pamEnv,
      w.Launches service username id cmd env pamEnv spec groups := by
  unfold World.Forks
  rw [spawned_iff]
  simp only [World.Launches.congr_spawnLeader]
  constructor
  · rintro ⟨id, cmd, env, pamEnv, s, g, h, hspawn⟩
    obtain ⟨⟨rfl, rfl⟩, -⟩ := Option.ite_none_right_eq_some.mp hspawn
    exact ⟨id, cmd, env, pamEnv, h⟩
  · rintro ⟨id, cmd, env, pamEnv, h⟩
    exact ⟨id, cmd, env, pamEnv, spec, groups, h, by simp⟩

/-- A run gets to one fork only. -/
theorem World.Forks.unique {spec spec' : SessionSpec} {groups groups' : List UInt32}
    (h : w.Forks service username spec groups) (h' : w.Forks service username spec' groups') :
    spec = spec' ∧ groups = groups' := by
  obtain ⟨id, cmd, env, pamEnv, hl⟩ := forks_iff.mp h
  obtain ⟨id', cmd', env', pamEnv', hl'⟩ := forks_iff.mp h'
  obtain rfl := Option.some.inj (hl.establishes.identity.symm.trans hl'.establishes.identity)
  obtain ⟨rfl, rfl⟩ : cmd = cmd' ∧ env = env' := by simpa using hl.recv.symm.trans hl'.recv
  obtain rfl := Option.some.inj (hl.getEnv.symm.trans hl'.getEnv)
  have hspec : spec = spec' := by simpa using hl.spec.symm.trans hl'.spec
  have hgroups : groups = groups' := by simpa using hl.groups.symm.trans hl'.groups
  exact ⟨hspec, hgroups⟩

/-! ## Its identity -/

/-- What `validate` lets through. -/
theorem validate_ok {lookup : String → Option (UInt32 × UInt32)} {id : ResolvedIdentity}
    {cmd : List String} {env : List (String × String)} {spec : SessionSpec}
    (h : validate lookup id cmd env = .ok spec) :
    spec = ⟨id.username, id.uid, id.gid, cmd, sanitizeEnv env⟩ ∧
      (uidMin ≤ id.uid ∧ uidMin ≤ id.gid) ∧ (id.uid ≠ 4294967295 ∧ id.gid ≠ 4294967295) ∧
      (∃ first, cmd.head? = some first ∧ first.startsWith "/" = true) ∧
      lookup id.username = some (id.uid, id.gid) := by
  unfold validate at h
  split at h
  · cases h
  split at h
  · cases h
  split at h
  · cases h
  split at h
  · cases h
  rename_i huid hgid hfloor hfloor'
  cases hc : cmd.head? with
  | none => simp [hc] at h
  | some first =>
    simp only [hc] at h
    split at h
    · cases h
    rename_i habs
    cases hl : lookup id.username with
    | none => simp [hl] at h
    | some ids =>
      obtain ⟨uid, gid⟩ := ids
      simp only [hl] at h
      split at h
      · cases h
      split at h
      · cases h
      rename_i hu hg
      obtain rfl := Except.ok.inj h
      obtain rfl := not_not.mp hu
      obtain rfl := not_not.mp hg
      exact ⟨rfl, ⟨UInt32.not_lt.mp hfloor, UInt32.not_lt.mp hfloor'⟩, ⟨huid, hgid⟩,
        ⟨first, rfl, by simpa using habs⟩, rfl⟩

theorem reports_of_isTalk {spec : SessionSpec} {a : Act} (h : isTalk a = true) :
    Reports spec a := by
  unfold Reports
  split
  · cases h
  · cases h
  · trivial

theorem reports_sendOutcome {spec : SessionSpec} {kernel : Except TransportError Unit}
    {o : WorkerOutcome} (h : Reports spec (.sent (.outcome o))) :
    ∀ a ∈ (sendOutcome kernel o).events, Reports spec a := by
  unfold sendOutcome
  split
  · simpa using h
  · simp

theorem reports_pamBracket {spec : SessionSpec} {c : PamCall} {act : Bool → Act}
    {e : Int32 → SessionError} (h : ∀ ok, Reports spec (act ok)) :
    ∀ a ∈ (pamBracket c act e).events, Reports spec a := by
  intro a ha
  rcases List.mem_append.mp ha with ha | ha
  · exact reports_of_isTalk (talk_acts c a ha)
  · obtain rfl := List.mem_singleton.mp ha
    exact h c.ok

/-- Every report of a run is about the identity that PAM and the passwd database gave. -/
theorem reports_runSession {id : ResolvedIdentity} {spec : SessionSpec}
    (hest : w.Establishes service username id) (hspec : spec.username = id.username ∧
      spec.uid = id.uid ∧ spec.gid = id.gid) :
    ∀ a ∈ (runSession w service username).events, Reports spec a := by
  obtain ⟨hname, huid, hgid⟩ := hspec
  have hleader (s : SessionSpec) (g : List UInt32) :
      ∀ a ∈ (runLeader w id s g).events, Reports spec a := by
    unfold runLeader
    split
    · simp
    · refine Emit.forall_bind (by simp [Reports]) fun _ => Emit.forall_bind
        (reports_sendOutcome ⟨hname.symm, huid.symm, hgid.symm⟩) fun _ => ?_
      split
      · simp
      · exact Emit.forall_bind (by simp [Reports]) (by simp)
  have hlogin : ∀ a ∈ (runLogin w id).events, Reports spec a := by
    unfold runLogin
    exact Emit.forall_bind (reports_sendOutcome ⟨hname.symm, huid.symm, hgid.symm⟩) fun _ =>
      Emit.forall_bind (fun a ha => reports_of_isTalk (talk_readSpec w a ha)) fun cmd =>
      Emit.forall_bind (reports_pamBracket fun _ => trivial) fun _ =>
      Emit.forall_bind (by simp) fun pamEnv => Emit.forall_bind (by simp) fun s =>
      Emit.forall_bind (by simp) fun g => Emit.forall_bind (hleader s g) fun status =>
      Emit.forall_bind (reports_pamBracket fun _ => trivial) (by simp)
  have hhandle : ∀ a ∈ (runHandle w).events, Reports spec a := by
    intro a ha
    unfold runHandle at ha
    rcases Emit.mem_bind.mp ha with ha | ⟨id', hid, ha⟩
    · exact reports_of_isTalk (talk_runAuthPhase w a ha)
    obtain rfl : id' = id :=
      Option.some.inj ((runAuthPhase_ok.mp hid).2.2.symm.trans hest.identity)
    refine Emit.forall_bind ?_ (fun _ => Emit.forall_bind hlogin fun status =>
      Emit.forall_bind ?_ fun _ => ?_) a ha
    · exact reports_pamBracket fun _ => trivial
    · exact reports_pamBracket fun _ => trivial
    · exact reports_sendOutcome trivial
  unfold runSession
  simp only [hest.service, hest.username, hest.start, Bool.or_self, Bool.false_eq_true, if_false,
    ne_eq, not_true_eq_false]
  intro a ha
  simp only [List.cons_append, List.mem_cons, List.mem_append, List.not_mem_nil, or_false] at ha
  rcases ha with rfl | ha | rfl
  · trivial
  · exact hhandle a ha
  · trivial

/-- The `AuthOk` is in the run. -/
theorem World.Launches.sent_authOk {id : ResolvedIdentity} {cmd : List String}
    {env pamEnv : List (String × String)} {spec : SessionSpec} {groups : List UInt32}
    (h : w.Launches service username id cmd env pamEnv spec groups) :
    .sent (.outcome (.authOk id.username id.uid id.gid)) ∈
      (runSession w service username).events := by
  have hsent : Act.sent (.outcome (.authOk id.username id.uid id.gid)) ∈
      (sendOutcome w.sendAuthOk (.authOk id.username id.uid id.gid)).events := by
    simp [sendOutcome, h.authOk]
  have hid := runAuthPhase_ok.mpr ⟨h.establishes.authenticate, h.establishes.acctMgmt,
    h.establishes.identity⟩
  have hlogin : Act.sent (.outcome (.authOk id.username id.uid id.gid)) ∈
      (runLogin w id).events := by
    unfold runLogin
    exact Emit.mem_bind.mpr (.inl hsent)
  have hhandle : Act.sent (.outcome (.authOk id.username id.uid id.gid)) ∈
      (runHandle w).events := by
    unfold runHandle
    refine Emit.mem_bind.mpr (.inr ⟨id, hid, Emit.mem_bind.mpr (.inr
      ⟨(), pamBracket_ok.mpr h.establishes.setCred, Emit.mem_bind.mpr (.inl hlogin)⟩)⟩)
  unfold runSession
  simp [h.establishes.service, h.establishes.username, h.establishes.start, hhandle]

theorem userGroups_ok {name : String} {gid : UInt32} {groups : List UInt32}
    (h : userGroups w name gid = .ok groups) : ∃ base, w.getGroupList name gid = some base ∧
      groups.head? = some gid ∧ groups.Nodup ∧ ∀ g, g ∈ groups ↔ g = gid ∨ g ∈ base := by
  unfold userGroups at h
  split at h
  · cases h
  split at h
  · cases h
  cases hb : w.getGroupList name gid with
  | none => simp [hb] at h
  | some base =>
    simp only [hb] at h
    obtain rfl := Except.ok.inj h
    obtain ⟨⟨rest, hrest⟩, hnodup, hmem⟩ := foldl_dedupPush base (List.nodup_cons.mpr
      ⟨List.not_mem_nil, List.nodup_nil⟩ : [gid].Nodup)
    rw [show dedupPush [] gid = [gid] from rfl]
    refine ⟨base, rfl, ?_, hnodup, fun g => by rw [hmem, List.mem_singleton]⟩
    rw [← hrest]
    rfl

end

/-! ## The leader -/

/-- **The leader of a run.** Whenever a leader is forked, it is so from one spec and one list of
groups. The spec has the identity that the `AuthOk` and the `SessionOpened` of the run report, which
is that of the passwd database and no system account's. Its command is the greeter's and absolute,
its environment has the allowed pairs of the PAM environment and no other, and the groups are those
of `getgrouplist` behind the primary one, each once. -/
theorem leader_vetted {w : World} {list : Option (List (List UInt8))} {service username : String}
    {p : Pid} (h : .spawned p ∈ (runSession (w.withPamEnv list) service username).events) :
    ∃ spec groups, w.spawnLeader spec groups = some p ∧
      (∀ spec' groups', (w.withPamEnv list).Forks service username spec' groups' ↔
        spec' = spec ∧ groups' = groups) ∧
      Vetted w list (runSession (w.withPamEnv list) service username).events spec groups := by
  obtain ⟨id, cmd, env, pamEnv, spec, groups, hl, hspawn⟩ := spawned_iff.mp h
  have hforks : (w.withPamEnv list).Forks service username spec groups :=
    forks_iff.mpr ⟨id, cmd, env, pamEnv, hl⟩
  refine ⟨spec, groups, hspawn,
    fun spec' groups' => ⟨fun h' => World.Forks.unique h' hforks, ?_⟩, ?_⟩
  · rintro ⟨rfl, rfl⟩
    exact hforks
  obtain ⟨rfl, hfloor, hsent, hcmd, hpasswd⟩ := validate_ok hl.spec
  obtain ⟨entries, rfl, rfl⟩ := Option.map_eq_some_iff.mp hl.getEnv
  refine ⟨hl.sent_authOk, reports_runSession hl.establishes ⟨rfl, rfl, rfl⟩, hfloor, hsent,
    hpasswd, ⟨env, hl.recv⟩, hcmd, ?_, ⟨entries, rfl, ?_, rfl⟩, userGroups_ok hl.groups⟩
  · intro kv hkv
    have hallowed := (List.mem_filter.mp hkv).2
    simpa [isEnvAllowed] using hallowed
  · intro kv hkv
    obtain ⟨entry, hentry, hsplit⟩ := List.mem_filterMap.mp (List.mem_filter.mp hkv).1
    exact ⟨entry, hentry, pairOf_of_split hsplit⟩

/-- `alice` logs in. Two PAM entries are kept, one of them not in UTF-8, and one is not allowed. -/
def latinWorld : World := { loginWorld "alice" 1000 with
  getGroupList := fun _ gid => some [27, gid, 27] }

def latinEnv : List (List UInt8) :=
  [utf8 "LANG=a=b".toList, utf8 "LD_PRELOAD=x".toList, utf8 "LC_ALL=".toList ++ [0xff]]

def latinSpec : SessionSpec :=
  ⟨"alice", 1000, 1000, ["/bin/sh"], [("LANG", "a=b"), ("LC_ALL", "\uFFFD")]⟩

theorem leader_vetted_latin : Vetted latinWorld (some latinEnv)
    (runSession (latinWorld.withPamEnv (some latinEnv)) "halmasuit" "alice").events latinSpec
    [1000, 27] := by
  obtain ⟨spec, groups, -, hforks, h⟩ := @leader_vetted latinWorld (some latinEnv) "halmasuit"
    "alice" 4242 (by decide +kernel)
  obtain ⟨rfl, rfl⟩ := (hforks latinSpec [1000, 27]).mp (by
    unfold World.Forks
    decide +kernel)
  exact h

/-- The value that is not in UTF-8 comes out as U+FFFD, which is no entry of the list. -/
theorem lossy_pair_survives :
    (latinWorld.withPamEnv (some latinEnv)).Forks "halmasuit" "alice" latinSpec [1000, 27] ∧
      ∃ kv ∈ latinSpec.env, ∀ entry ∈ latinEnv,
        entry ≠ utf8 (kv.1 ++ "=" ++ kv.2).toList := by
  refine ⟨?_, ("LC_ALL", "\uFFFD"), by decide, by decide +kernel⟩
  unfold World.Forks
  decide +kernel

end Halmasuit.Session
