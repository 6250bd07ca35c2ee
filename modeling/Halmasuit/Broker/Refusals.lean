import Halmasuit.Lib.Run
import Halmasuit.Broker.Loop

/-!
# The log of refusals

A peer that the broker refuses may come back as often as it likes, so a refusal is not always
written down (`broker.rs` 442–520): for each uid there is a line at most once a minute, and the next
one says how many refusals had none.

The table is a function, and the clock may read anything. An `Instant` is counted from the smallest
one that there is, where `checked_sub` ends.

- **`refusals_logged`**: on every run, a refusal has a line exactly when there was none in the last
  minute, whatever the other peers do, and the line counts those that had none since the last.
-/

namespace Halmasuit.Broker

open Halmasuit.Lib

/-- `RefusalState`. -/
structure RefusalState where
  lastLogged : Instant
  /-- A `u32`. -/
  suppressed : Nat
  deriving DecidableEq, Repr

/-- `RefusalLog`. -/
abbrev RefusalLog : Type := UInt32 → Option RefusalState

/-- `SUPPRESS_WINDOW`, in seconds. -/
def suppressSecs : Nat := 60

/-- `SUPPRESS_WINDOW`. -/
def suppressWindow : Nat := suppressSecs * 1000000000

/-- `SUPPRESS_WINDOW + Duration::from_secs(1)`. -/
def firstAge : Nat := suppressWindow + 1000000000

/-- `Instant::checked_sub`. -/
def checkedSub (now : Instant) (d : Nat) : Option Instant :=
  if d ≤ now then some (now - d) else none

/-- The entry of a peer that was not refused before. -/
def RefusalState.first (now : Instant) : RefusalState :=
  ⟨(checkedSub now firstAge).getD now, 0⟩

/-- The line about a refusal. -/
def refusalText (puid relayPeerUid : UInt32) (suppressed : Nat) : String :=
  let refused := s!"RequestRootFd refused: peer uid {puid} is neither root nor " ++
    s!"relay_peer_uid {relayPeerUid}"
  if 0 < suppressed then
    refused ++ s!" (+{suppressed} suppressed in last {suppressSecs}s)"
  else refused

/-- `u32::MAX`. -/
def u32Max : Nat := 4294967295

/-- `record_refusal`: the log after it, and the line. -/
def RefusalLog.recordRefusal (log : RefusalLog) (now : Instant) (puid relayPeerUid : UInt32) :
    RefusalLog × Option String :=
  let entry := (log puid).getD (.first now)
  let insert (entry : RefusalState) : RefusalLog := fun u => if u = puid then some entry else log u
  if suppressWindow ≤ now - entry.lastLogged then
    (insert ⟨now, 0⟩, some (refusalText puid relayPeerUid entry.suppressed))
  else (insert { entry with suppressed := min (entry.suppressed + 1) u32Max }, none)

/-- A refusal, with its line. -/
structure Refusal where
  puid : UInt32
  now : Instant
  line : Option String
  deriving DecidableEq, Repr

/-- One refusal of a run. -/
def RefusalLog.step (relayPeerUid : UInt32) (log : RefusalLog) (i : UInt32 × Instant) :
    RefusalLog × List Refusal :=
  let r := log.recordRefusal i.2 i.1 relayPeerUid
  (r.1, [⟨i.1, i.2, r.2⟩])

/-! ## What a line says -/

/-- The refusals of a peer. -/
def ofPeer (puid : UInt32) (tr : List Refusal) : List Refusal := tr.filter (·.puid = puid)

/-- How often a peer was refused after the last line about it. -/
def silent (puid : UInt32) (tr : List Refusal) : Nat :=
  ((ofPeer puid tr).reverse.takeWhile (·.line.isNone)).length

/-- What is right about a refusal, after the refusals before it. A peer that came in the first 61
seconds of the clock waits a minute for its first line. -/
def LineOk (relayPeerUid : UInt32) (pre : List Refusal) (r : Refusal) : Prop :=
  match r.line with
  | some text =>
    text = refusalText r.puid relayPeerUid (min (silent r.puid pre) u32Max) ∧
      ∀ r' ∈ ofPeer r.puid pre, r'.line.isSome = true → r'.now + suppressWindow ≤ r.now
  | none =>
    ∃ r' ∈ ofPeer r.puid (pre ++ [r]), r.now < r'.now + suppressWindow ∧
      (r'.line.isSome = true ∨ r'.now < firstAge)

theorem ofPeer_snoc_self (tr : List Refusal) (r : Refusal) :
    ofPeer r.puid (tr ++ [r]) = ofPeer r.puid tr ++ [r] := by
  simp [ofPeer, List.filter_append]

theorem ofPeer_snoc_of_ne {puid : UInt32} {r : Refusal} (h : puid ≠ r.puid) (tr : List Refusal) :
    ofPeer puid (tr ++ [r]) = ofPeer puid tr := by
  simp [ofPeer, List.filter_append, h.symm]

/-- The window is over. -/
theorem due_iff (last now : Nat) :
    suppressWindow ≤ now - last ↔ last + suppressWindow ≤ now := by
  have hpos : 0 < suppressWindow := by decide
  omega

theorem checkedSub_of_le {now : Instant} {d : Nat} (h : d ≤ now) :
    checkedSub now d = some (now - d) := if_pos h

theorem checkedSub_of_lt {now : Instant} {d : Nat} (h : now < d) : checkedSub now d = none :=
  if_neg (Nat.not_le_of_lt h)

/-- What is older than the window is due, but on a clock that is too young. -/
theorem aged_due {now age window : Nat} (hage : window ≤ age)
    (h : ¬ (checkedSub now age).getD now + window ≤ now) :
    (checkedSub now age).getD now = now ∧ now < age := by
  rcases Nat.lt_or_ge now age with hyoung | hold
  · rw [checkedSub_of_lt hyoung]
    exact ⟨rfl, hyoung⟩
  · rw [checkedSub_of_le hold, Option.getD_some] at h
    have hdue : now - age + window ≤ now := by omega
    exact absurd hdue h

/-- The refusal that an entry dates from. -/
def Dates (tr : List Refusal) (puid : UInt32) (last : Instant) : Prop :=
  ∃ r ∈ ofPeer puid tr, r.now = last ∧
    (r.line.isSome = true ∨ r.now < firstAge)

/-- What the entry of a peer says of the refusals so far. -/
def EntryOk (tr : List Refusal) (puid : UInt32) : Option RefusalState → Prop
  | none => ofPeer puid tr = []
  | some entry =>
    entry.suppressed = min (silent puid tr) u32Max ∧ Dates tr puid entry.lastLogged ∧
      ∀ r ∈ ofPeer puid tr, r.line.isSome = true → r.now ≤ entry.lastLogged

/-- The refusals of other peers are no matter of an entry. -/
theorem EntryOk.of_ne {tr : List Refusal} {puid : UInt32} {entry : Option RefusalState}
    (h : EntryOk tr puid entry) {r : Refusal} (hne : puid ≠ r.puid) :
    EntryOk (tr ++ [r]) puid entry := by
  cases entry with
  | none => simpa [EntryOk, ofPeer_snoc_of_ne hne] using h
  | some entry => simpa [EntryOk, Dates, silent, ofPeer_snoc_of_ne hne] using h

/-- A refusal without a line, which its entry is the reason for. -/
theorem entry_silent {tr : List Refusal} {puid : UInt32} {entry : RefusalState} {now : Instant}
    (hsup : entry.suppressed = min (silent puid tr) u32Max)
    (hdates : Dates (tr ++ [⟨puid, now, none⟩]) puid entry.lastLogged)
    (hmax : ∀ r ∈ ofPeer puid tr, r.line.isSome = true → r.now ≤ entry.lastLogged) :
    EntryOk (tr ++ [⟨puid, now, none⟩]) puid
      (some { entry with suppressed := min (entry.suppressed + 1) u32Max }) := by
  have hself := ofPeer_snoc_self tr ⟨puid, now, none⟩
  dsimp only at hself
  refine ⟨?_, hdates, fun r hr hline => ?_⟩
  · have hsilent : silent puid (tr ++ [⟨puid, now, none⟩]) = silent puid tr + 1 := by
      simp [silent, hself]
    rw [hsilent, hsup]
    dsimp only
    omega
  · rw [hself] at hr
    rcases List.mem_append.mp hr with hr | hr
    · exact hmax r hr hline
    · rw [List.mem_singleton.mp hr] at hline
      cases hline

theorem entry_logged {tr : List Refusal} {puid : UInt32} {now : Instant} {text : String}
    (hmax : ∀ r ∈ ofPeer puid tr, r.line.isSome = true → r.now ≤ now) :
    EntryOk (tr ++ [⟨puid, now, some text⟩]) puid (some ⟨now, 0⟩) := by
  have hself := ofPeer_snoc_self tr ⟨puid, now, some text⟩
  dsimp only at hself
  refine ⟨?_, ⟨⟨puid, now, some text⟩, ?_, rfl, .inl rfl⟩, fun r hr hline => ?_⟩
  · simp [silent, hself]
  · rw [hself]
    exact List.mem_append_right _ (List.mem_singleton.mpr rfl)
  · rw [hself] at hr
    rcases List.mem_append.mp hr with hr | hr
    · exact hmax r hr hline
    · rw [List.mem_singleton.mp hr]

/-- One refusal. -/
theorem recordRefusal_ok {log : RefusalLog} {tr : List Refusal}
    (h : ∀ puid, EntryOk tr puid (log puid)) (now : Instant) (puid relayPeerUid : UInt32) :
    let r := log.recordRefusal now puid relayPeerUid
    LineOk relayPeerUid tr ⟨puid, now, r.2⟩ ∧
      EntryOk (tr ++ [⟨puid, now, r.2⟩]) puid (r.1 puid) := by
  intro r
  have hself : ∀ line, ofPeer puid (tr ++ [⟨puid, now, line⟩]) =
      ofPeer puid tr ++ [⟨puid, now, line⟩] := fun line => ofPeer_snoc_self tr ⟨puid, now, line⟩
  have hentry : ∃ entry, (log puid).getD (.first now) = entry ∧
      entry.suppressed = min (silent puid tr) u32Max ∧
      (∀ r ∈ ofPeer puid tr, r.line.isSome = true → r.now ≤ entry.lastLogged) ∧
      (¬ entry.lastLogged + suppressWindow ≤ now →
        Dates (tr ++ [⟨puid, now, none⟩]) puid entry.lastLogged) := by
    refine ⟨_, rfl, ?_⟩
    have hp := h puid
    cases hlog : log puid with
    | some entry =>
      rw [hlog] at hp
      obtain ⟨hsup, ⟨r, hr, hdate⟩, hmax⟩ := hp
      refine ⟨hsup, hmax, fun _ => ⟨r, ?_, hdate⟩⟩
      rw [hself]
      exact List.mem_append_left _ hr
    | none =>
      rw [hlog] at hp
      have hnil : ofPeer puid tr = [] := hp
      refine ⟨by simp [silent, hnil, RefusalState.first], by simp [hnil], fun hnot => ?_⟩
      -- with no entry, only a clock that is too young holds the line back
      obtain ⟨hlast, hyoung⟩ := aged_due (by decide) hnot
      exact ⟨⟨puid, now, none⟩, by simp [hself], hlast.symm, .inr hyoung⟩
  obtain ⟨entry, heq, hsup, hmax, hdates⟩ := hentry
  unfold r RefusalLog.recordRefusal
  dsimp only
  rw [heq]
  by_cases hdue : suppressWindow ≤ now - entry.lastLogged
  · rw [if_pos hdue]
    dsimp only
    rw [due_iff] at hdue
    rw [if_pos rfl, hsup]
    refine ⟨⟨rfl, fun r hr hline => ?_⟩, entry_logged fun r hr hline => ?_⟩
    · exact (Nat.add_le_add_right (hmax r hr hline) _).trans hdue
    · exact (hmax r hr hline).trans ((Nat.le_add_right _ _).trans hdue)
  · rw [if_neg hdue]
    dsimp only
    rw [due_iff] at hdue
    rw [if_pos rfl]
    have hd := hdates hdue
    refine ⟨?_, entry_silent hsup hd hmax⟩
    obtain ⟨r', hr', hlast, hwhy⟩ := hd
    refine ⟨r', hr', ?_, hwhy⟩
    rw [hlast]
    exact Nat.lt_of_not_le hdue

/-- One refusal leaves every entry right. -/
theorem recordRefusal_entries {log : RefusalLog} {tr : List Refusal}
    (h : ∀ puid, EntryOk tr puid (log puid)) (now : Instant) (puid relayPeerUid : UInt32) :
    let r := log.recordRefusal now puid relayPeerUid
    LineOk relayPeerUid tr ⟨puid, now, r.2⟩ ∧
      ∀ u, EntryOk (tr ++ [⟨puid, now, r.2⟩]) u (r.1 u) := by
  intro r
  obtain ⟨hline, hentry⟩ := recordRefusal_ok h now puid relayPeerUid
  refine ⟨hline, fun u => ?_⟩
  by_cases hu : u = puid
  · subst hu
    exact hentry
  · have hother : r.1 u = log u := by
      unfold r RefusalLog.recordRefusal
      dsimp only
      split <;> exact if_neg hu
    rw [hother]
    exact (h u).of_ne hu

/-- **Refusals are logged once a minute.** On every run, and whatever the other peers do, the lines
about one peer are at least a minute apart; a refusal without a line has one of the same peer in the
minute before it that was logged, or that came in the first 61 seconds of the clock; and a line counts
the refusals since the last one, up to `u32::MAX`. -/
theorem refusals_logged (relayPeerUid : UInt32) (is : List (UInt32 × Instant)) :
    Always (LineOk relayPeerUid) (run (RefusalLog.step relayPeerUid) (fun _ => none) is).2 := by
  have h0 : ∀ puid, EntryOk [] puid none := fun puid => List.filter_nil
  refine (run_invariant_init (fun (log : RefusalLog) tr =>
    (∀ puid, EntryOk tr puid (log puid)) ∧ Always (LineOk relayPeerUid) tr)
    ⟨h0, always_nil _⟩ ?_ is).2
  rintro log tr ⟨puid, now⟩ ⟨hentries, htrace⟩
  obtain ⟨hline, hnext⟩ := recordRefusal_entries hentries now puid relayPeerUid
  exact ⟨hnext, htrace.snoc hline⟩

end Halmasuit.Broker
