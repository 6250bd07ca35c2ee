import Halmasuit.Lib.Text
import Mathlib.Data.List.Infix
import Mathlib.Data.Set.Insert
import Mathlib.Order.BooleanAlgebra.Set

/-!
# The audit of the threads

Model of `task_caps.rs`: after the privileges are dropped, `audit_all_tasks` reads the status file
of every thread, and `check` compares its uids and its capability sets with what is left to the
process, which is `CAP_KILL` at most.

A status file is a text with a field in each line, and the name of the thread, which other code
chooses, is in the first one. `Status` is such a text as the kernel writes it.

- `parseStatus_text`: what is read from it, whatever the name;
- `check_eq_ok`: what passes;
- `audit_iff`: the audit succeeds exactly if there was a thread to read, no read failed but for a
  thread that is gone, and every thread has dropped its privileges.
-/

namespace Halmasuit.Compositor.TaskCaps

open Lib.Text

/-! ## The code -/

/-- `CAP_KILL_MASK`. -/
def capKillMask : UInt64 := 0x20

/-- Real, effective, saved, and filesystem uid. -/
abbrev Uids : Type := UInt32 × UInt32 × UInt32 × UInt32

/-- `TaskCreds`. -/
structure TaskCreds where
  uids : Uids
  capInh : UInt64
  capPrm : UInt64
  capEff : UInt64
  capBnd : UInt64
  capAmb : UInt64
  deriving DecidableEq

/-- Why a status file is refused. The texts around these are left out. -/
inductive StatusError where
  | missing (name : String)
  | cap (name : String) (raw : List Char)
  | uid (raw : List Char)
  | uidCount (n : Nat)
  deriving DecidableEq

/-- The value of the first line of the field. -/
def field (text : List Char) (name : String) : Except StatusError (List Char) :=
  match (lines text).findSome? fun line =>
      (line.dropPrefix? name.toList).bind fun rest => rest.dropPrefix? [':'] with
  | some raw => .ok (trim raw)
  | none => .error (.missing name)

def cap (text : List Char) (name : String) : Except StatusError UInt64 := do
  let raw ← field text name
  match fromStrRadix 16 UInt64.size raw with
  | some n => .ok (UInt64.ofNat n)
  | none => .error (.cap name raw)

/-- The four uids of the field. -/
def uids (uidRaw : List Char) : Except StatusError Uids :=
  match (splitWhitespace uidRaw).mapM (fromStrRadix 10 UInt32.size) with
  | none => .error (.uid uidRaw)
  | some [r, e, s, f] => .ok (UInt32.ofNat r, UInt32.ofNat e, UInt32.ofNat s, UInt32.ofNat f)
  | some parsed => .error (.uidCount parsed.length)

/-- `parse_status`. -/
def parseStatus (text : List Char) : Except StatusError TaskCreds := do
  let uidRaw ← field text "Uid"
  let uids ← uids uidRaw
  return {
    uids := uids
    capInh := ← cap text "CapInh"
    capPrm := ← cap text "CapPrm"
    capEff := ← cap text "CapEff"
    capBnd := ← cap text "CapBnd"
    capAmb := ← cap text "CapAmb" }

/-- What `check` finds wrong. -/
inductive Violation where
  | uid (uids : Uids) (uid : UInt32)
  | nonEmpty (name : String) (value : UInt64)
  | exceeds (name : String) (value : UInt64)
  deriving DecidableEq

/-- `check`. -/
def check (creds : TaskCreds) (uid : UInt32) : Except (List Violation) Unit :=
  let violations :=
    (if creds.uids ≠ (uid, uid, uid, uid) then [.uid creds.uids uid] else []) ++
    ([("CapBnd", creds.capBnd), ("CapInh", creds.capInh), ("CapAmb", creds.capAmb)].filter
      fun c => c.2 ≠ 0).map (fun c => .nonEmpty c.1 c.2) ++
    ([("CapPrm", creds.capPrm), ("CapEff", creds.capEff)].filter
      fun c => c.2 &&& ~~~capKillMask ≠ 0).map fun c => .exceeds c.1 c.2
  if violations.isEmpty then .ok () else .error violations

/-- `io::ErrorKind`, as far as the code tells its cases apart. -/
inductive ErrorKind where
  | notFound
  | other
  deriving DecidableEq

/-- A thread that is listed, and what its status file reads as. -/
structure Task (τ : Type) where
  tid : String
  status : Except ErrorKind τ

inductive AuditError where
  | io (kind : ErrorKind)
  | status (tid : String) (e : StatusError)
  | noTask
  | violations (vs : List (String × List Violation))
  deriving DecidableEq

/-- The loop of `audit_all_tasks`, from the violations and the number of threads that were read. -/
def auditTasks (uid : UInt32) : List (Except ErrorKind (Task (List Char))) →
    List (String × List Violation) → Nat →
    Except AuditError (List (String × List Violation) × Nat)
  | [], violations, audited => .ok (violations, audited)
  | .error kind :: _, _, _ => .error (.io kind)
  | .ok task :: entries, violations, audited =>
    match task.status with
    | .error .notFound => auditTasks uid entries violations audited
    | .error kind => .error (.io kind)
    | .ok text =>
      match parseStatus text with
      | .error e => .error (.status task.tid e)
      | .ok creds =>
        match check creds uid with
        | .ok () => auditTasks uid entries violations (audited + 1)
        | .error v => auditTasks uid entries (violations ++ [(task.tid, v)]) (audited + 1)

/-- `audit_all_tasks`. -/
def auditAllTasks (uid : UInt32)
    (readDir : Except ErrorKind (List (Except ErrorKind (Task (List Char))))) :
    Except AuditError Unit := do
  let entries ← readDir.mapError .io
  let (violations, audited) ← auditTasks uid entries [] 0
  if audited = 0 then .error .noTask
  else if violations.isEmpty then .ok ()
  else .error (.violations violations)

/-! ## Status files -/

/-- The field `name` has one line, and its value there is as `P` says. -/
def Has (ls : List (List Char)) (name : String) (P : List Char → Prop) : Prop :=
  ∃ value, P value ∧ ls.filter (fun l => decide (name.toList ++ [':'] <+: l))
    = [name.toList ++ ':' :: value]

/-- Four numbers in base 10, each behind a tab. -/
def ShowsUids (u : Uids) (value : List Char) : Prop :=
  ∃ r e s f, value = '\t' :: (r ++ '\t' :: (e ++ '\t' :: (s ++ '\t' :: f))) ∧
    IsNumeral 10 r u.1.toNat ∧ IsNumeral 10 e u.2.1.toNat ∧
    IsNumeral 10 s u.2.2.1.toNat ∧ IsNumeral 10 f u.2.2.2.toNat

/-- A number in base 16 behind a tab. -/
def ShowsCap (v : UInt64) (value : List Char) : Prop :=
  ∃ w, value = '\t' :: w ∧ IsNumeral 16 w v.toNat

/-- A status file, with what it says: the name of the thread, whose newlines are escaped, and then
the other fields in any order, a line each. -/
structure Status where
  name : List Char
  rest : List (List Char)
  creds : TaskCreds
  name_line : '\n' ∉ name
  rest_lines : ∀ l ∈ rest, '\n' ∉ l
  uid : Has rest "Uid" (ShowsUids creds.uids)
  capInh : Has rest "CapInh" (ShowsCap creds.capInh)
  capPrm : Has rest "CapPrm" (ShowsCap creds.capPrm)
  capEff : Has rest "CapEff" (ShowsCap creds.capEff)
  capBnd : Has rest "CapBnd" (ShowsCap creds.capBnd)
  capAmb : Has rest "CapAmb" (ShowsCap creds.capAmb)

/-- A thread that calls itself a field. -/
example : ∃ s : Status, s.name = "\\nUid:\t0".toList ∧
    s.creds = ⟨(998, 998, 0, 998), 0, 0x20, 0x20, 0, 0⟩ := by
  refine ⟨⟨"\\nUid:\t0".toList, ["Uid:\t998\t998\t0\t998".toList, "CapInh:\t0".toList,
    "CapPrm:\t20".toList, "CapEff:\t20".toList, "CapBnd:\t0".toList, "CapAmb:\t0".toList],
    ⟨(998, 998, 0, 998), 0, 0x20, 0x20, 0, 0⟩, by decide, by decide,
    ⟨_, ⟨"998".toList, "998".toList, "0".toList, "998".toList, rfl, ?_⟩, by decide⟩,
    ⟨_, ⟨"0".toList, rfl, ?_⟩, by decide⟩, ⟨_, ⟨"20".toList, rfl, ?_⟩, by decide⟩,
    ⟨_, ⟨"20".toList, rfl, ?_⟩, by decide⟩, ⟨_, ⟨"0".toList, rfl, ?_⟩, by decide⟩,
    ⟨_, ⟨"0".toList, rfl, ?_⟩, by decide⟩⟩, rfl, rfl⟩ <;> decide

def Status.text (s : Status) : List Char := unlines (("Name:\t".toList ++ s.name) :: s.rest)

/-- The file of a thread that has another name. -/
def Status.rename (s : Status) (name : List Char) (h : '\n' ∉ name) : Status :=
  { s with name := name, name_line := h }

/-- The capabilities of a set, by their numbers. -/
def capsOf (v : UInt64) : Set Nat := {i | v.toNat.testBit i = true}

/-- `CAP_KILL`. -/
def capKill : Nat := 5

/-- Nothing is left of the privileges but `CAP_KILL`. -/
structure Dropped (uid : UInt32) (creds : TaskCreds) : Prop where
  uids : creds.uids = (uid, uid, uid, uid)
  bounding : capsOf creds.capBnd = ∅
  inheritable : capsOf creds.capInh = ∅
  ambient : capsOf creds.capAmb = ∅
  permitted : capsOf creds.capPrm ⊆ {capKill}
  effective : capsOf creds.capEff ⊆ {capKill}

/-! ## What is read -/

/-- A prefix in two steps. -/
theorem dropPrefix?_bind {line a b rest : List Char} :
    ((line.dropPrefix? a).bind fun r => r.dropPrefix? b) = some rest ↔ line = a ++ (b ++ rest) := by
  simp only [Option.bind_eq_some_iff, List.dropPrefix?_eq_some_iff, beq_iff_eq]
  constructor
  · rintro ⟨r, ⟨_, rfl, rfl⟩, _, rfl, rfl⟩
    rfl
  · rintro rfl
    exact ⟨_, ⟨_, rfl, rfl⟩, _, rfl, rfl⟩

/-- The one line that a function takes is the one it finds. -/
theorem findSome?_of_filter {α β : Type} {g : α → Option β} (p : α → Bool) (a : α) {b : β}
    (hnone : ∀ x, p x = false → g x = none) (ha : g a = some b) {xs : List α}
    (h : xs.filter p = [a]) : xs.findSome? g = some b := by
  induction xs with
  | nil => cases h
  | cons x xs ih =>
    cases hp : p x with
    | true =>
      rw [List.filter_cons_of_pos hp] at h
      obtain ⟨rfl, -⟩ := List.cons.inj h
      rw [List.findSome?_cons, ha]
    | false =>
      rw [List.filter_cons_of_neg (by simp [hp])] at h
      rw [List.findSome?_cons, hnone x hp]
      exact ih h

/-- A value begins and ends in something else than a blank. -/
def Ended (w : List Char) : Prop :=
  (∀ c ∈ w.head?, isWhitespace c = false) ∧ ∀ c ∈ w.getLast?, isWhitespace c = false

theorem Ended.of_forall {w : List Char} (h : ∀ c ∈ w, isWhitespace c = false) : Ended w :=
  ⟨fun c hc => h c (List.mem_of_mem_head? hc), fun c hc => h c (List.mem_of_getLast? hc)⟩

theorem stripCr_prefix (l : List Char) : stripCr l <+: l := by
  unfold stripCr
  split
  · exact List.dropLast_prefix l
  · exact List.prefix_refl l

theorem stripCr_line {key w : List Char} (hw : Ended w) :
    stripCr (key ++ ':' :: '\t' :: w) = key ++ ':' :: '\t' :: w := by
  unfold stripCr
  rw [if_neg]
  intro hlast
  cases hw' : w.getLast? with
  | none =>
    obtain rfl := List.getLast?_eq_none_iff.mp hw'
    simp at hlast
  | some c =>
    have hne : w ≠ [] := by
      rintro rfl
      cases hw'
    have hc : c = '\r' := by
      have heq : (key ++ ':' :: '\t' :: w).getLast? = w.getLast? := by
        rw [List.append_cons, List.append_cons, List.getLast?_append_of_ne_nil _ hne]
      rw [heq, hw'] at hlast
      exact Option.some.inj hlast
    have hblank := hw.2 c hw'
    rw [hc] at hblank
    exact absurd hblank (by decide)

/-- **A field is looked up past the name**, which is on a line of its own. -/
theorem field_text (s : Status) {key : String} {P : List Char → Prop} (h : Has s.rest key P)
    (hP : ∀ value, P value → ∃ w, value = '\t' :: w ∧ Ended w)
    (hkey : ∀ name, ¬ key.toList ++ [':'] <+: "Name:\t".toList ++ name) :
    ∃ w, P ('\t' :: w) ∧ field s.text key = .ok w := by
  obtain ⟨value, hvalue, hline⟩ := h
  obtain ⟨w, rfl, hw⟩ := hP value hvalue
  refine ⟨w, hvalue, ?_⟩
  have hlines : ∀ l ∈ ("Name:\t".toList ++ s.name) :: s.rest, '\n' ∉ l := by
    refine List.forall_mem_cons.mpr ⟨?_, s.rest_lines⟩
    rw [List.mem_append, not_or]
    exact ⟨by decide, s.name_line⟩
  have hfound : (("Name:\t".toList ++ s.name) :: s.rest).findSome? (fun l =>
      ((stripCr l).dropPrefix? key.toList).bind fun r => r.dropPrefix? [':'])
        = some ('\t' :: w) := by
    refine findSome?_of_filter (fun l => decide (key.toList ++ [':'] <+: l))
      (key.toList ++ ':' :: '\t' :: w) ?_ ?_ ?_
    · intro l hl
      rw [Option.eq_none_iff_forall_ne_some]
      intro rest hrest
      have hprefix := stripCr_prefix l
      rw [dropPrefix?_bind.mp hrest] at hprefix
      refine of_decide_eq_false hl ?_
      refine List.IsPrefix.trans ?_ hprefix
      exact ⟨rest, by simp⟩
    · rw [stripCr_line hw]
      exact dropPrefix?_bind.mpr rfl
    · rw [List.filter_cons_of_neg]
      · exact hline
      · rw [decide_eq_true_iff]
        exact hkey s.name
  unfold field Status.text
  rw [lines_unlines hlines, List.findSome?_map]
  simp only [Function.comp_def, hfound]
  rw [trim_cons (by decide) hw.1 hw.2]

theorem not_blank_of_isNumeral {radix n : Nat} {w : List Char} (h : IsNumeral radix w n) :
    ∀ c ∈ w, isWhitespace c = false := not_blank_of_numeral h.2

theorem cap_text (s : Status) {key : String} {v : UInt64} (h : Has s.rest key (ShowsCap v))
    (hkey : ∀ name, ¬ key.toList ++ [':'] <+: "Name:\t".toList ++ name) :
    cap s.text key = .ok v := by
  have hended : ∀ value, ShowsCap v value → ∃ w, value = '\t' :: w ∧ Ended w := by
    rintro _ ⟨w, rfl, hw⟩
    exact ⟨w, rfl, .of_forall (not_blank_of_isNumeral hw)⟩
  obtain ⟨w, ⟨w', heq, hw⟩, hfield⟩ := field_text s h hended hkey
  obtain ⟨-, rfl⟩ := List.cons.inj heq
  unfold cap
  simp only [hfield, bind, Except.bind, fromStrRadix_numeral (by decide) v.toNat_lt hw,
    UInt64.ofNat_toNat]

/-- Four words, a tab between each two. -/
theorem splitWhitespace_four {a b c d : List Char} (ha : ∃ n, IsNumeral 10 a n)
    (hb : ∃ n, IsNumeral 10 b n) (hc : ∃ n, IsNumeral 10 c n) (hd : ∃ n, IsNumeral 10 d n) :
    splitWhitespace (a ++ '\t' :: (b ++ '\t' :: (c ++ '\t' :: d))) = [a, b, c, d] := by
  have htab : isWhitespace '\t' = true := by decide
  obtain ⟨_, ha⟩ := ha
  obtain ⟨_, hb⟩ := hb
  obtain ⟨_, hc⟩ := hc
  obtain ⟨_, hd⟩ := hd
  rw [splitWhitespace_append ha.1 (not_blank_of_isNumeral ha) htab,
    splitWhitespace_append hb.1 (not_blank_of_isNumeral hb) htab,
    splitWhitespace_append hc.1 (not_blank_of_isNumeral hc) htab,
    splitWhitespace_word hd.1 (not_blank_of_isNumeral hd)]

theorem getLast?_behind {α : Type} {xs ys : List α} {a : α} (h : ys ≠ []) :
    (xs ++ a :: ys).getLast? = ys.getLast? := by
  rw [List.append_cons, List.getLast?_append_of_ne_nil _ h]

theorem uids_text (s : Status) : ∃ w, field s.text "Uid" = .ok w ∧ uids w = .ok s.creds.uids := by
  have hended : ∀ value, ShowsUids s.creds.uids value → ∃ w, value = '\t' :: w ∧ Ended w := by
    rintro _ ⟨r, e, u, f, rfl, hr, -, -, hf⟩
    refine ⟨_, rfl, ?_, ?_⟩
    · intro c hc
      rw [List.head?_append_of_ne_nil _ hr.1] at hc
      exact not_blank_of_isNumeral hr c (List.mem_of_mem_head? hc)
    · intro c hc
      have hlast : (r ++ '\t' :: (e ++ '\t' :: (u ++ '\t' :: f))).getLast? = f.getLast? := by
        rw [getLast?_behind (by simp), getLast?_behind (by simp), getLast?_behind hf.1]
      rw [hlast] at hc
      exact not_blank_of_isNumeral hf c (List.mem_of_getLast? hc)
  obtain ⟨w, ⟨r, e, u, f, heq, hr, he, hu, hf⟩, hfield⟩ :=
    field_text s s.uid hended (by simp)
  obtain ⟨-, rfl⟩ := List.cons.inj heq
  refine ⟨_, hfield, ?_⟩
  have hread : ∀ {x : List Char} {n : UInt32}, IsNumeral 10 x n.toNat →
      fromStrRadix 10 UInt32.size x = some n.toNat :=
    fun {_ n} h => fromStrRadix_numeral (by decide) n.toNat_lt h
  unfold uids
  rw [splitWhitespace_four ⟨_, hr⟩ ⟨_, he⟩ ⟨_, hu⟩ ⟨_, hf⟩]
  simp [hread hr, hread he, hread hu, hread hf]

/-- **What is read from a status file is what the kernel says in it**, whatever the name. -/
theorem parseStatus_text (s : Status) : parseStatus s.text = .ok s.creds := by
  obtain ⟨w, hfield, huids⟩ := uids_text s
  unfold parseStatus
  simp only [hfield, huids, cap_text s s.capInh (by simp), cap_text s s.capPrm (by simp),
    cap_text s s.capEff (by simp), cap_text s s.capBnd (by simp), cap_text s s.capAmb (by simp),
    bind, Except.bind, pure, Except.pure]

example : parseStatus
    ("Name:\t\\nUid:\t0\nUid:\t998\t998\t0\t998\nCapInh:\t0\nCapPrm:\t20\nCapEff:\t20\n" ++
      "CapBnd:\t0\nCapAmb:\t0\n").toList
    = .ok ⟨(998, 998, 0, 998), 0, 0x20, 0x20, 0, 0⟩ := by decide

/-! ## What passes -/

theorem mem_capsOf {v : UInt64} {i : Nat} : i ∈ capsOf v ↔ v.toBitVec.getLsbD i = true := Iff.rfl

theorem capsOf_eq_empty {v : UInt64} : capsOf v = ∅ ↔ v = 0 := by
  rw [Set.eq_empty_iff_forall_notMem]
  constructor
  · intro h
    refine UInt64.toNat_inj.mp (Nat.eq_of_testBit_eq fun i => ?_)
    rw [Bool.eq_false_iff.mpr (h i)]
    exact (Nat.zero_testBit i).symm
  · rintro rfl i
    rw [mem_capsOf]
    simp

/-- Masking out is the difference of the sets. -/
theorem capsOf_and_not (v m : UInt64) : capsOf (v &&& ~~~m) = capsOf v \ capsOf m := by
  ext i
  rw [Set.mem_sdiff, mem_capsOf, mem_capsOf, mem_capsOf, UInt64.toBitVec_and, UInt64.toBitVec_not,
    BitVec.getLsbD_and, BitVec.getLsbD_not]
  have hlt : v.toBitVec.getLsbD i = true → i < 64 := BitVec.lt_of_getLsbD
  grind

theorem capsOf_capKillMask : capsOf capKillMask = {capKill} := by
  ext i
  have hmask : capKillMask.toBitVec = BitVec.twoPow 64 capKill := by decide
  rw [mem_capsOf, hmask, BitVec.getLsbD_twoPow]
  simp [capKill, eq_comm]

theorem and_not_eq_zero {v : UInt64} : v &&& ~~~capKillMask = 0 ↔ capsOf v ⊆ {capKill} := by
  rw [← capsOf_eq_empty, capsOf_and_not, capsOf_capKillMask, Set.sdiff_eq_empty]

/-- **What passes.** -/
theorem check_eq_ok {creds : TaskCreds} {uid : UInt32} :
    check creds uid = .ok () ↔ Dropped uid creds := by
  have hdropped : Dropped uid creds ↔ creds.uids = (uid, uid, uid, uid) ∧ creds.capBnd = 0 ∧
      creds.capInh = 0 ∧ creds.capAmb = 0 ∧ creds.capPrm &&& ~~~capKillMask = 0 ∧
      creds.capEff &&& ~~~capKillMask = 0 := by
    rw [← capsOf_eq_empty, ← capsOf_eq_empty, ← capsOf_eq_empty, and_not_eq_zero, and_not_eq_zero]
    exact ⟨fun h => ⟨h.uids, h.bounding, h.inheritable, h.ambient, h.permitted, h.effective⟩,
      fun ⟨h₁, h₂, h₃, h₄, h₅, h₆⟩ => ⟨h₁, h₂, h₃, h₄, h₅, h₆⟩⟩
  rw [hdropped]
  unfold check
  simp [and_assoc]

/-! ## The run -/

/-- A listing with what the status files read as. -/
def texts (entries : List (Except ErrorKind (Task Status))) :
    List (Except ErrorKind (Task (List Char))) :=
  entries.map (·.map fun t => { t with status := t.status.map Status.text })

/-- The threads that were read. -/
def readTasks (tasks : List (Task Status)) : List (String × Status) :=
  tasks.filterMap fun t => t.status.toOption.map (t.tid, ·)

/-- What is reported of these. -/
def violationsOf (uid : UInt32) (ts : List (String × Status)) : List (String × List Violation) :=
  ts.filterMap fun t =>
    match check t.2.creds uid with
    | .ok () => none
    | .error v => some (t.1, v)

theorem violationsOf_append (uid : UInt32) (ts us : List (String × Status)) :
    violationsOf uid (ts ++ us) = violationsOf uid ts ++ violationsOf uid us :=
  List.filterMap_append

theorem violationsOf_eq_nil {uid : UInt32} {ts : List (String × Status)} :
    violationsOf uid ts = [] ↔ ∀ t ∈ ts, Dropped uid t.2.creds := by
  unfold violationsOf
  rw [List.filterMap_eq_nil_iff]
  refine forall₂_congr fun t _ => ?_
  rw [← check_eq_ok]
  cases h : check t.2.creds uid with
  | ok u => simp
  | error v => simp

/-- What a thread that was read does. -/
theorem auditTasks_ok (uid : UInt32) (tid : String) (s : Status)
    (entries : List (Except ErrorKind (Task Status))) (vs : List (String × List Violation))
    (n : Nat) :
    auditTasks uid (texts (.ok ⟨tid, .ok s⟩ :: entries)) vs n
      = auditTasks uid (texts entries) (vs ++ violationsOf uid [(tid, s)]) (n + 1) := by
  have htexts : texts (.ok ⟨tid, .ok s⟩ :: entries) = .ok ⟨tid, .ok s.text⟩ :: texts entries := rfl
  rw [htexts, auditTasks]
  simp only [parseStatus_text]
  unfold violationsOf
  cases hcheck : check s.creds uid with
  | ok u => simp [hcheck]
  | error v => simp [hcheck]

/-- The loop over threads that can be read or are gone. -/
theorem auditTasks_read {uid : UInt32} {tasks : List (Task Status)}
    (h : ∀ t ∈ tasks, t.status ≠ .error .other) (vs : List (String × List Violation)) (n : Nat) :
    auditTasks uid (texts (tasks.map .ok)) vs n
      = .ok (vs ++ violationsOf uid (readTasks tasks), n + (readTasks tasks).length) := by
  induction tasks generalizing vs n with
  | nil => simp [texts, auditTasks, readTasks, violationsOf]
  | cons t tasks ih =>
    obtain ⟨ht, htasks⟩ := List.forall_mem_cons.mp h
    obtain ⟨tid, status⟩ := t
    cases status with
    | error kind =>
      cases kind with
      | other => exact absurd rfl ht
      | notFound => exact ih htasks vs n
    | ok s =>
      have hread : readTasks (⟨tid, .ok s⟩ :: tasks) = [(tid, s)] ++ readTasks tasks := rfl
      rw [List.map_cons, auditTasks_ok, ih htasks, hread, violationsOf_append, List.append_assoc,
        List.length_append, Nat.add_assoc]
      rfl

/-- Any other failure ends it. -/
theorem auditTasks_failed {uid : UInt32} {entries : List (Except ErrorKind (Task Status))}
    (h : ¬ ∃ tasks : List (Task Status), entries = tasks.map .ok ∧
      ∀ t ∈ tasks, t.status ≠ .error .other)
    (vs : List (String × List Violation)) (n : Nat) :
    ∃ e, auditTasks uid (texts entries) vs n = .error e := by
  induction entries generalizing vs n with
  | nil => exact absurd ⟨[], rfl, by simp⟩ h
  | cons entry entries ih =>
    cases entry with
    | error kind => exact ⟨_, rfl⟩
    | ok t =>
      obtain ⟨tid, status⟩ := t
      have hentries : status ≠ .error .other →
          ¬ ∃ tasks : List (Task Status), entries = tasks.map .ok ∧
            ∀ t ∈ tasks, t.status ≠ .error .other := by
        rintro hstatus ⟨tasks, rfl, htasks⟩
        exact h ⟨⟨tid, status⟩ :: tasks, rfl, List.forall_mem_cons.mpr ⟨hstatus, htasks⟩⟩
      cases status with
      | error kind =>
        cases kind with
        | other => exact ⟨_, rfl⟩
        | notFound => exact ih (hentries (by simp)) vs n
      | ok s =>
        rw [auditTasks_ok]
        exact ih (hentries (by simp)) _ _

theorem mem_readTasks {tasks : List (Task Status)} {tid : String} {s : Status} :
    (tid, s) ∈ readTasks tasks ↔ ⟨tid, .ok s⟩ ∈ tasks := by
  unfold readTasks
  rw [List.mem_filterMap]
  constructor
  · rintro ⟨⟨tid', status⟩, ht, hs⟩
    cases status with
    | error kind => simp [Except.toOption] at hs
    | ok s' =>
      simp only [Except.toOption, Option.map_some, Option.some.injEq, Prod.mk.injEq] at hs
      obtain ⟨rfl, rfl⟩ := hs
      exact ht
  · intro h
    exact ⟨_, h, rfl⟩

theorem auditAllTasks_ok {uid : UInt32} {entries : List (Except ErrorKind (Task (List Char)))} :
    auditAllTasks uid (.ok entries) = .ok () ↔ ∃ n, n ≠ 0 ∧
      auditTasks uid entries [] 0 = .ok ([], n) := by
  unfold auditAllTasks
  simp only [Except.mapError, bind, Except.bind]
  cases auditTasks uid entries [] 0 with
  | error e => simp
  | ok r =>
    obtain ⟨vs, n⟩ := r
    by_cases hn : n = 0
    · simp [hn]
    · by_cases hvs : vs = []
      · simp [hn, hvs]
      · simp [hn, hvs]

/-- The audit of threads that can be read or are gone. -/
theorem auditAllTasks_read {uid : UInt32} {tasks : List (Task Status)}
    (h : ∀ t ∈ tasks, t.status ≠ .error .other) :
    auditAllTasks uid (.ok (texts (tasks.map .ok))) = .ok () ↔
      readTasks tasks ≠ [] ∧ ∀ t ∈ readTasks tasks, Dropped uid t.2.creds := by
  rw [auditAllTasks_ok, auditTasks_read h, List.nil_append, Nat.zero_add, ← violationsOf_eq_nil,
    ← List.length_pos_iff]
  constructor
  · rintro ⟨n, hn, hrun⟩
    obtain ⟨hnone, rfl⟩ := Prod.mk.inj (Except.ok.inj hrun)
    exact ⟨Nat.pos_of_ne_zero hn, hnone⟩
  · rintro ⟨hpos, hnone⟩
    exact ⟨_, hpos.ne', by rw [hnone]⟩

/-- **The audit succeeds exactly if there was a thread to read, no read failed but for a thread that
is gone, and all that were read have dropped their privileges.** No name changes what is read. -/
theorem audit_iff (uid : UInt32) :
    (∀ listing : Except ErrorKind (List (Except ErrorKind (Task Status))),
      auditAllTasks uid (listing.map texts) = .ok () ↔
        ∃ tasks : List (Task Status), listing = .ok (tasks.map .ok) ∧
          (∃ t ∈ tasks, ∃ s, t.status = .ok s) ∧
          (∀ t ∈ tasks, ∀ kind, t.status = .error kind → kind = .notFound) ∧
          ∀ t ∈ tasks, ∀ s, t.status = .ok s → Dropped uid s.creds) ∧
    ∀ s : Status, parseStatus s.text = .ok s.creds ∧
      ∀ name h, parseStatus (s.rename name h).text = parseStatus s.text := by
  refine ⟨fun listing => ⟨fun h => ?_, ?_⟩, fun s => ⟨parseStatus_text s, fun name h => ?_⟩⟩
  · cases listing with
    | error kind => simp [auditAllTasks, Except.map, Except.mapError, bind, Except.bind] at h
    | ok entries =>
      by_cases hlisted : ∃ tasks : List (Task Status), entries = tasks.map .ok ∧
          ∀ t ∈ tasks, t.status ≠ .error .other
      · obtain ⟨tasks, rfl, htasks⟩ := hlisted
        obtain ⟨hone, hdropped⟩ := (auditAllTasks_read htasks).mp h
        obtain ⟨⟨tid, s⟩, hs⟩ := List.exists_mem_of_ne_nil _ hone
        refine ⟨tasks, rfl, ⟨_, mem_readTasks.mp hs, s, rfl⟩, ?_, ?_⟩
        · rintro t ht kind hkind
          cases kind with
          | notFound => rfl
          | other => exact absurd hkind (htasks t ht)
        · rintro ⟨tid, _⟩ ht s rfl
          exact hdropped _ (mem_readTasks.mpr ht)
      · obtain ⟨n, -, hrun⟩ := auditAllTasks_ok.mp h
        obtain ⟨e, he⟩ := @auditTasks_failed uid _ hlisted [] 0
        rw [he] at hrun
        cases hrun
  · rintro ⟨tasks, rfl, ⟨⟨tid, _⟩, ht, s, rfl⟩, hgone, hdropped⟩
    refine (auditAllTasks_read ?_).mpr ⟨?_, ?_⟩
    · intro t ht hother
      cases hgone t ht _ hother
    · exact List.ne_nil_of_mem (mem_readTasks.mpr ht)
    · rintro ⟨tid, s⟩ hs
      exact hdropped _ (mem_readTasks.mp hs) s rfl
  · rw [parseStatus_text, parseStatus_text]
    rfl
end Halmasuit.Compositor.TaskCaps
