import Halmasuit.Drm.DeviceSpec
import Halmasuit.Lib.Search
import Mathlib.Data.List.Lex

/-!
# The device that is found

`resolve_drm_device` and what it calls (`drm.rs` 289–480): the device that the environment names is
looked for until it is there, at most until a deadline. What one look sees of the system is `Sys`, and
the looks may all see different ones.

* What is no UTF-8 is no name of a card and no address either, so the tests for
  it are left out.
* The paths of a directory's entries are ordered as their names are.
* The log and the text of the error at the deadline are left out.

Results:
* `find_auto_settles`: the card that is found by itself is the least connected one, in the order of
  the names, before any that fails to open with another error than those that skip a card; so in
  whatever order the directory lists them, it is the same.
* `resolve_probes`: the looks are at most as many as intervals begin before the deadline, and one at
  least; the answer is that of the first look that had one.
-/

namespace Halmasuit.Drm.Resolve

open Halmasuit.Lib
open Halmasuit.Lib.Search
open Halmasuit.Lib.Text
open Halmasuit.Drm.DeviceSpec

/-! ## The code -/

/-- `io::Error`. -/
inductive IoError where
  | notFound
  | permissionDenied
  /-- Another errno. -/
  | other (errno : Nat)
  /-- The error at the deadline, whose kind is `NotFound`. -/
  | timedOut
  deriving DecidableEq, Repr

/-- The name of a file. -/
structure Name where
  bytes : List UInt8
  deriving DecidableEq, Repr

theorem Name.toNat_injective : Function.Injective fun name : Name => name.bytes.map UInt8.toNat := by
  intro a b h
  have hbytes : a.bytes = b.bytes := List.map_injective_iff.mpr (fun _ _ => UInt8.toNat_inj.mp) h
  cases a
  cases b
  simpa using hbytes

/-- Names are ordered as their bytes. -/
instance : LinearOrder Name := LinearOrder.lift' _ Name.toNat_injective

/-- A directory: the errors are of single entries. -/
abbrev Listing : Type := Except IoError (List (Except IoError Name))

/-- The system, as one look sees it. -/
structure Sys where
  /-- `/dev/dri`. -/
  dri : Listing
  /-- `/sys/class/drm`. -/
  classDrm : Listing
  /-- Whether a path is a symbolic link. -/
  symlinkMetadata : List UInt8 → Except IoError Bool
  /-- Opening a card for reading and writing, and then its connectors, if it has resources: whether
  one is connected, if it can be asked. -/
  openCard : Name → Except IoError (Option (List (Option Bool)))
  /-- The last component of what `device` of an entry of `/sys/class/drm` links to, if any. -/
  readLink : Name → Except IoError (Option (List UInt8))

/-- `card`. -/
def card : List UInt8 := [0x63, 0x61, 0x72, 0x64]

/-- `/dev/dri/`. -/
def driDir : List UInt8 := [0x2f, 0x64, 0x65, 0x76, 0x2f, 0x64, 0x72, 0x69, 0x2f]

/-- `parse::<u32>`. -/
def parseU32 (s : List UInt8) : Option Nat :=
  fromStrRadix 10 4294967296 (s.map fun b => Char.ofNat b.toNat)

/-- `card` and a number. -/
def isCardName (name : Name) : Bool :=
  match name.bytes.dropPrefix? card with
  | none => false
  | some rest => (parseU32 rest).isSome

/-- `card_has_connected_connector`. -/
def cardHasConnectedConnector (sys : Sys) (name : Name) : Except IoError Bool :=
  match sys.openCard name with
  | .error .notFound => .ok false
  | .error .permissionDenied => .ok false
  | .error e => .error e
  | .ok none => .ok false
  | .ok (some connectors) => .ok (connectors.any (· == some true))

/-- `find_auto`. -/
def findAuto (sys : Sys) : Except IoError (Option (List UInt8)) :=
  match sys.dri with
  | .error .notFound => .ok none
  | .error e => .error e
  | .ok entries =>
    match entries.mapM id with
    | .error e => .error e
    | .ok names =>
      let cards := (names.filter isCardName).mergeSort fun a b => decide (a ≤ b)
      (cards.findM? (cardHasConnectedConnector sys)).map (·.map (driDir ++ ·.bytes))

/-- `eq_ignore_ascii_case`. -/
def eqIgnoreAsciiCase (a b : List UInt8) : Bool := a.map toAsciiLowercase == b.map toAsciiLowercase

/-- The loop of `find_by_bdf`. -/
def findByBdfIn (sys : Sys) (bdf : PciBdf) :
    List (Except IoError Name) → Except IoError (Option (List UInt8))
  | [] => .ok none
  | .error e :: _ => .error e
  | .ok name :: rest =>
    if isCardName name then
      match sys.readLink name with
      | .error .notFound => findByBdfIn sys bdf rest
      | .error e => .error e
      | .ok none => findByBdfIn sys bdf rest
      | .ok (some basename) =>
        if eqIgnoreAsciiCase basename bdf.str then .ok (some (driDir ++ name.bytes))
        else findByBdfIn sys bdf rest
    else findByBdfIn sys bdf rest

/-- `find_by_bdf`. -/
def findByBdf (sys : Sys) (bdf : PciBdf) : Except IoError (Option (List UInt8)) :=
  match sys.classDrm with
  | .error .notFound => .ok none
  | .error e => .error e
  | .ok entries => findByBdfIn sys bdf entries

/-- `try_resolve_once`. -/
def tryResolveOnce (sys : Sys) : DrmDeviceSpec → Except IoError (Option (List UInt8))
  | .auto => findAuto sys
  | .path p =>
    match sys.symlinkMetadata p with
    | .ok true => .ok none
    | .ok false => .ok (some p)
    | .error .notFound => .ok none
    | .error e => .error e
  | .pci bdf => findByBdf sys bdf

/-- `RESOLVE_POLL_INTERVAL`, in nanoseconds. -/
def resolvePollInterval : Nat := 100000000

/-- The loop of `resolve_drm_device`: its answer, if it has come to one, and how often it looked. A
look comes with the time since the start, which is read after the sleep before it. -/
def resolveLoop (spec : DrmDeviceSpec) (deadline : Nat) :
    List (Nat × Sys) → Option (Except IoError (List UInt8)) × Nat
  | [] => (none, 0)
  | (elapsed, sys) :: later =>
    if deadline ≤ elapsed then (some (.error .timedOut), 0)
    else
      match tryResolveOnce sys spec with
      | .error e => (some (.error e), 1)
      | .ok (some p) => (some (.ok p), 1)
      | .ok none =>
        let r := resolveLoop spec deadline later
        (r.1, r.2 + 1)

/-- `resolve_drm_device`. -/
def resolveDrmDevice (spec : DrmDeviceSpec) (deadline : Nat) (first : Sys)
    (later : List (Nat × Sys)) : Option (Except IoError (List UInt8)) × Nat :=
  match tryResolveOnce first spec with
  | .error e => (some (.error e), 1)
  | .ok (some p) => (some (.ok p), 1)
  | .ok none =>
    let r := resolveLoop spec deadline later
    (r.1, r.2 + 1)

/-! ## The card that is found -/

/-- The cards of a directory. -/
def IsCard (names : List Name) (name : Name) : Prop := name ∈ names ∧ isCardName name = true

theorem sorted_cards {names : List Name} (hnodup : names.Nodup) :
    ((names.filter isCardName).mergeSort fun a b => decide (a ≤ b)).Pairwise (· < ·) := by
  have hle : ((names.filter isCardName).mergeSort fun a b => decide (a ≤ b)).Pairwise
      fun a b => decide (a ≤ b) = true := by
    refine List.pairwise_mergeSort (fun a b c hab hbc => ?_) (fun a b => ?_) _
    · rw [decide_eq_true_eq] at *
      exact le_trans hab hbc
    · simpa using le_total a b
  have hne : ((names.filter isCardName).mergeSort fun a b => decide (a ≤ b)).Nodup :=
    (List.mergeSort_perm _ _).nodup_iff.mpr (hnodup.filter _)
  exact (hle.and hne).imp fun {a b} h => lt_of_le_of_ne (of_decide_eq_true h.1) h.2

theorem mapM_ok (names : List Name) :
    (names.map Except.ok : List (Except IoError Name)).mapM id = .ok names := by
  induction names with
  | nil => rfl
  | cons name names ih => simp [ih, bind, Except.bind, pure, Except.pure]

/-- The search goes through the cards in order. -/
theorem findAuto_spec {sys : Sys} {names : List Name} (hdri : sys.dri = .ok (names.map .ok))
    (hnodup : names.Nodup) :
    ∃ r, Settles (cardHasConnectedConnector sys) (IsCard names) r ∧
      findAuto sys = r.map (·.map (driDir ++ ·.bytes)) := by
  have hmem : (· ∈ (names.filter isCardName).mergeSort fun a b => decide (a ≤ b)) =
      IsCard names := by
    funext name
    rw [(List.mergeSort_perm _ _).mem_iff, List.mem_filter]
    rfl
  refine ⟨_, hmem ▸ settles_findM? (cardHasConnectedConnector sys) (sorted_cards hnodup), ?_⟩
  simp only [findAuto, hdri, mapM_ok]

/-- **The card that is found.** Of a directory that can be read, the least card that is connected is
found, unless one before it fails to open with an error other than `NotFound` and `PermissionDenied`:
that is the error then. And so it is in whatever order the directory is read. -/
theorem find_auto_settles {sys : Sys} {names : List Name} (hdri : sys.dri = .ok (names.map .ok))
    (hnodup : names.Nodup) :
    (∃ r, Settles (cardHasConnectedConnector sys) (IsCard names) r ∧
      findAuto sys = r.map (·.map (driDir ++ ·.bytes))) ∧
    ∀ names' : List Name, names'.Perm names →
      findAuto { sys with dri := .ok (names'.map .ok) } = findAuto sys := by
  obtain ⟨r, hr, hfound⟩ := findAuto_spec hdri hnodup
  refine ⟨⟨r, hr, hfound⟩, fun names' hperm => ?_⟩
  obtain ⟨r', hr', hfound'⟩ := @findAuto_spec { sys with dri := .ok (names'.map .ok) } names' rfl
    (hperm.nodup_iff.mpr hnodup)
  have hmem : IsCard names' = IsCard names := by
    funext name
    exact propext (and_congr_left fun _ => hperm.mem_iff)
  have hsame : Settles (cardHasConnectedConnector sys) (IsCard names) r' := hmem ▸ hr'
  rw [hfound', hfound, hsame.unique hr]

/-- `card1`, connected, comes before `card10`, which is in use; and in the order of the names `card10`
comes before `card2`. -/
def twoCards : Sys where
  dri := .ok ([⟨card ++ [0x32]⟩, ⟨card ++ [0x31, 0x30]⟩, ⟨card ++ [0x31]⟩].map .ok)
  classDrm := .ok []
  symlinkMetadata := fun _ => .ok false
  openCard := fun name =>
    if name = ⟨card ++ [0x31, 0x30]⟩ then .error (.other 16)
    else .ok (some [some false, none, some true])
  readLink := fun _ => .ok none

theorem find_auto_settles_twoCards :
    (∃ r, Settles (cardHasConnectedConnector twoCards)
      (IsCard [⟨card ++ [0x32]⟩, ⟨card ++ [0x31, 0x30]⟩, ⟨card ++ [0x31]⟩]) r ∧
      findAuto twoCards = r.map (·.map (driDir ++ ·.bytes))) ∧
    ∀ names' : List Name,
      names'.Perm [⟨card ++ [0x32]⟩, ⟨card ++ [0x31, 0x30]⟩, ⟨card ++ [0x31]⟩] →
        findAuto { twoCards with dri := .ok (names'.map .ok) } = findAuto twoCards :=
  find_auto_settles rfl (by decide)

/-! ## How often it looks -/

/-- Each sleep takes at least the interval. -/
def Slept (t : Nat) : List (Nat × Sys) → Prop
  | [] => True
  | (elapsed, _) :: later => t + resolvePollInterval ≤ elapsed ∧ Slept elapsed later

/-- The looks of the loop begin before the deadline, and as long as it has no answer, it goes on to
look. -/
theorem resolveLoop_looks (spec : DrmDeviceSpec) (deadline : Nat) (later : List (Nat × Sys)) :
    ∀ t, Slept t later →
      let r := resolveLoop spec deadline later
      (r.2 = 0 ∨ t + r.2 * resolvePollInterval < deadline) ∧
        (r.1 = none → r.2 = later.length) := by
  induction later with
  | nil => exact fun t _ => ⟨.inl rfl, fun _ => rfl⟩
  | cons look later ih =>
    obtain ⟨elapsed, sys⟩ := look
    rintro t ⟨hslept, hlater⟩
    have ih := ih elapsed hlater
    unfold resolveLoop
    by_cases hdeadline : deadline ≤ elapsed
    · rw [if_pos hdeadline]
      exact ⟨.inl rfl, fun h => by cases h⟩
    rw [if_neg hdeadline]
    cases tryResolveOnce sys spec with
    | error e => exact ⟨.inr (by simp only; omega), fun h => by cases h⟩
    | ok found =>
      cases found with
      | some p => exact ⟨.inr (by simp only; omega), fun h => by cases h⟩
      | none =>
        obtain ⟨hlooks, hgoes⟩ := ih
        refine ⟨.inr ?_, fun h => congrArg (· + 1) (hgoes h)⟩
        rw [Nat.add_mul, Nat.one_mul]
        rcases hlooks with hzero | hlt
        · rw [hzero]
          omega
        · omega

/-- The answer of a look, if it has one. -/
def decided {α : Type} : Except IoError (Option α) → Option (Except IoError α)
  | .error e => some (.error e)
  | .ok found => found.map .ok

/-- `n` looks were taken, none but the last of which had an answer: that is the one, or the time that
was read before the next look had reached the deadline. -/
def AnswerOf (spec : DrmDeviceSpec) (deadline : Nat) (looks : List (Nat × Sys)) (n : Nat)
    (answer : Except IoError (List UInt8)) : Prop :=
  ∃ before after, looks = before ++ after ∧
    (∀ look ∈ before, decided (tryResolveOnce look.2 spec) = none) ∧
    ∃ look, after.head? = some look ∧
      ((answer = .error .timedOut ∧ deadline ≤ look.1 ∧ before.length = n) ∨
        decided (tryResolveOnce look.2 spec) = some answer ∧ before.length + 1 = n)

theorem AnswerOf.cons {spec : DrmDeviceSpec} {deadline : Nat} {looks : List (Nat × Sys)} {n : Nat}
    {answer : Except IoError (List UInt8)} (h : AnswerOf spec deadline looks n answer)
    {look : Nat × Sys} (hlook : decided (tryResolveOnce look.2 spec) = none) :
    AnswerOf spec deadline (look :: looks) (n + 1) answer := by
  obtain ⟨before, after, rfl, hnone, next, hhead, hcases⟩ := h
  refine ⟨look :: before, after, rfl, fun look' hmem => ?_, next, hhead, ?_⟩
  · rcases List.mem_cons.mp hmem with rfl | hmem
    · exact hlook
    · exact hnone look' hmem
  · rcases hcases with ⟨hanswer, hpassed, hlen⟩ | ⟨hdecided, hlen⟩
    · exact .inl ⟨hanswer, hpassed, congrArg (· + 1) hlen⟩
    · exact .inr ⟨hdecided, congrArg (· + 1) hlen⟩

theorem AnswerOf.first {spec : DrmDeviceSpec} {look : Nat × Sys}
    {answer : Except IoError (List UInt8)}
    (h : decided (tryResolveOnce look.2 spec) = some answer) (deadline : Nat)
    (looks : List (Nat × Sys)) : AnswerOf spec deadline (look :: looks) 1 answer :=
  ⟨[], look :: looks, rfl, (fun _ hmem => by cases hmem), look, rfl, .inr ⟨h, rfl⟩⟩

theorem resolveLoop_answer (spec : DrmDeviceSpec) (deadline : Nat) (later : List (Nat × Sys)) :
    ∀ answer, (resolveLoop spec deadline later).1 = some answer →
      AnswerOf spec deadline later (resolveLoop spec deadline later).2 answer := by
  induction later with
  | nil => exact fun answer h => by cases h
  | cons look later ih =>
    obtain ⟨elapsed, sys⟩ := look
    intro answer h
    unfold resolveLoop at h ⊢
    by_cases hdeadline : deadline ≤ elapsed
    · rw [if_pos hdeadline] at h ⊢
      cases h
      exact ⟨[], _, rfl, (fun _ hmem => by cases hmem), _, rfl, .inl ⟨rfl, hdeadline, rfl⟩⟩
    rw [if_neg hdeadline] at h ⊢
    cases hlook : tryResolveOnce sys spec with
    | error e =>
      rw [hlook] at h
      exact .first (by rw [hlook]; exact h) deadline _
    | ok found =>
      rw [hlook] at h
      cases found with
      | some p => exact .first (by rw [hlook]; exact h) deadline _
      | none => exact (ih answer h).cons (by rw [hlook]; rfl)

/-- **How often it looks.** However long the sleeps are, the device is looked for at most as often as
intervals begin before the deadline, or once; after so many looks there is an answer, and the answer
is the first that a look had, or that the deadline has come, as the time read then says. -/
theorem resolve_probes (spec : DrmDeviceSpec) (deadline : Nat) (first : Sys)
    (later : List (Nat × Sys)) (h : Slept 0 later) :
    let r := resolveDrmDevice spec deadline first later
    let n := max 1 ((deadline + resolvePollInterval - 1) / resolvePollInterval)
    r.2 ≤ n ∧ (n ≤ later.length → r.1 ≠ none) ∧
      ∀ answer, r.1 = some answer →
        AnswerOf spec deadline ((0, first) :: later) r.2 answer := by
  intro r n
  obtain ⟨hlooks, hgoes⟩ := resolveLoop_looks spec deadline later 0 h
  have hanswer := resolveLoop_answer spec deadline later
  cases hlook : tryResolveOnce first spec with
  | error e =>
    have hr : r = (some (.error e), 1) := by simp only [r, resolveDrmDevice, hlook]
    rw [hr]
    exact ⟨le_max_left _ _, (fun _ h => by cases h),
      fun answer h => .first (by rw [hlook]; exact h) deadline _⟩
  | ok found =>
    cases found with
    | some p =>
      have hr : r = (some (.ok p), 1) := by simp only [r, resolveDrmDevice, hlook]
      rw [hr]
      exact ⟨le_max_left _ _, (fun _ h => by cases h),
        fun answer h => .first (by rw [hlook]; exact h) deadline _⟩
    | none =>
      have hr : r = ((resolveLoop spec deadline later).1, (resolveLoop spec deadline later).2 + 1) :=
        by simp only [r, resolveDrmDevice, hlook]
      have hceil : ∀ k, k * resolvePollInterval < deadline →
          k + 1 ≤ (deadline + resolvePollInterval - 1) / resolvePollInterval := by
        intro k hk
        rw [Nat.le_div_iff_mul_le (by decide), Nat.add_mul, Nat.one_mul]
        omega
      rw [hr]
      generalize resolveLoop spec deadline later = loop at hlooks hgoes hanswer
      rw [Nat.zero_add] at hlooks
      have hmost : loop.2 + 1 ≤ n := by
        rcases hlooks with hzero | hlt
        · rw [hzero]
          exact le_max_left _ _
        · exact (hceil _ hlt).trans (le_max_right _ _)
      refine ⟨hmost, fun hn hnone => ?_, fun answer h => (hanswer answer h).cons (by rw [hlook]; rfl)⟩
      have hlen := hgoes hnone
      omega

/-- The card comes up at the second look. -/
theorem resolve_probes_second :
    let empty := { twoCards with dri := .error .notFound }
    let r := resolveDrmDevice .auto (250000000) empty [(100000000, twoCards)]
    let n := max 1 ((250000000 + resolvePollInterval - 1) / resolvePollInterval)
    r.2 ≤ n ∧ (n ≤ 1 → r.1 ≠ none) ∧
      ∀ answer, r.1 = some answer →
        AnswerOf .auto (250000000) [(0, empty), (100000000, twoCards)] r.2 answer :=
  resolve_probes .auto (250000000) { twoCards with dri := .error .notFound }
    [(100000000, twoCards)] ⟨by decide, trivial⟩

end Halmasuit.Drm.Resolve
