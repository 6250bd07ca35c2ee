import Halmasuit.Lib.Text

/-!
# The layout model

Model of `kushuh/src/config/{region,role,system,mod}.rs`. Each type carries what its constructor
checks, so a value is valid because it is one; the functions named `new` decide which values there
are, and give the source's errors for the others.
-/

namespace Halmasuit.Kushuh

open Lib

/-- `s.trim().is_empty()`. -/
def blank (s : String) : Bool := Text.blank s.toList

/-! ## `Region` -/

/-- `Region`. -/
structure Region where
  x : UInt8
  y : UInt8
  width : UInt8
  height : UInt8
  width_pos : 0 < width.toNat
  height_pos : 0 < height.toNat
  right_le : x.toNat + width.toNat ≤ 100
  bottom_le : y.toNat + height.toNat ≤ 100
  deriving DecidableEq

/-- `RegionError`. -/
inductive RegionError where
  | zeroWidth
  | zeroHeight
  | horizontalOverflow (x width : UInt8)
  | verticalOverflow (y height : UInt8)
  deriving DecidableEq

def RegionError.display : RegionError → String
  | .zeroWidth => "region width must be non-zero"
  | .zeroHeight => "region height must be non-zero"
  | .horizontalOverflow x width =>
    "region runs off the right edge: x (" ++ toString x.toNat ++ ") + width (" ++
      toString width.toNat ++ ") > 100"
  | .verticalOverflow y height =>
    "region runs off the bottom edge: y (" ++ toString y.toNat ++ ") + height (" ++
      toString height.toNat ++ ") > 100"

/-- The sum in `u16` does not wrap. -/
theorem toUInt16_add_le {a b : UInt8} (h : ¬ (100 < a.toUInt16 + b.toUInt16)) :
    a.toNat + b.toNat ≤ 100 := by
  have ha := a.toNat_lt
  have hb := b.toNat_lt
  rw [UInt16.not_lt, UInt16.le_iff_toNat_le, UInt16.toNat_add, UInt8.toNat_toUInt16,
    UInt8.toNat_toUInt16, Nat.mod_eq_of_lt (by omega)] at h
  exact h

theorem toNat_pos_of_ne_zero {a : UInt8} (h : a ≠ 0) : 0 < a.toNat :=
  Nat.pos_of_ne_zero fun heq => h (UInt8.toNat_inj.mp heq)

/-- `Region::new`. -/
def Region.new (x y width height : UInt8) : Except RegionError Region :=
  if hw : width = 0 then .error .zeroWidth
  else if hh : height = 0 then .error .zeroHeight
  else if hx : 100 < x.toUInt16 + width.toUInt16 then .error (.horizontalOverflow x width)
  else if hy : 100 < y.toUInt16 + height.toUInt16 then .error (.verticalOverflow y height)
  else .ok ⟨x, y, width, height, toNat_pos_of_ne_zero hw, toNat_pos_of_ne_zero hh,
    toUInt16_add_le hx, toUInt16_add_le hy⟩

/-- The rectangles there are, from their numbers. -/
theorem Region.new_eq_ok {x y width height : UInt8} {r : Region} :
    Region.new x y width height = .ok r ↔
      r.x = x ∧ r.y = y ∧ r.width = width ∧ r.height = height := by
  unfold Region.new
  constructor
  · intro h
    split_ifs at h
    cases h
    exact ⟨rfl, rfl, rfl, rfl⟩
  · rintro ⟨rfl, rfl, rfl, rfl⟩
    have hsum : ∀ {a b : UInt8}, a.toNat + b.toNat ≤ 100 → ¬ 100 < a.toUInt16 + b.toUInt16 := by
      intro a b h
      rw [UInt16.not_lt, UInt16.le_iff_toNat_le, UInt16.toNat_add, UInt8.toNat_toUInt16,
        UInt8.toNat_toUInt16, Nat.mod_eq_of_lt (by omega)]
      exact h
    have hw : r.width ≠ 0 := fun h => absurd r.width_pos (by simp [h])
    have hh : r.height ≠ 0 := fun h => absurd r.height_pos (by simp [h])
    rw [dif_neg hw, dif_neg hh, dif_neg (hsum r.right_le), dif_neg (hsum r.bottom_le)]

/-! ## `AppRef`, `Binding` and `Role` -/

/-- `BindingError`. -/
inductive BindingError where
  | emptyAppId
  | emptyProfile
  | cycleNeedsCandidates
  | emptyTitle
  deriving DecidableEq

def BindingError.display : BindingError → String
  | .emptyAppId => "app id must be non-empty"
  | .emptyProfile => "profile label must be non-empty when present"
  | .cycleNeedsCandidates => "a cycle binding needs at least two candidates"
  | .emptyTitle => "title pattern must be non-empty when present"

/-- `AppRef`. -/
structure AppRef where
  appId : String
  profile : Option String
  appId_nonblank : blank appId = false
  profile_nonblank : ∀ p, profile = some p → blank p = false
  deriving DecidableEq

/-- The text that may be there is there and blank. -/
def isSomeBlank (s : Option String) : Bool := s.any blank

theorem nonblank_of_not_isSomeBlank {s : Option String} (h : ¬ isSomeBlank s = true) :
    ∀ p, s = some p → blank p = false := by
  rintro p rfl
  simpa [isSomeBlank] using h

/-- `AppRef::new`. -/
def AppRef.new (appId : String) (profile : Option String) : Except BindingError AppRef :=
  if ha : blank appId = true then .error .emptyAppId
  else if hp : isSomeBlank profile = true then .error .emptyProfile
  else .ok ⟨appId, profile, eq_false_of_ne_true ha, nonblank_of_not_isSomeBlank hp⟩

theorem not_isSomeBlank {s : Option String} (h : ∀ p, s = some p → blank p = false) :
    ¬ isSomeBlank s = true := by
  cases s with
  | none => simp [isSomeBlank]
  | some p => simpa [isSomeBlank] using h p rfl

theorem AppRef.new_eq_ok {appId : String} {profile : Option String} {app : AppRef} :
    AppRef.new appId profile = .ok app ↔ app.appId = appId ∧ app.profile = profile := by
  unfold AppRef.new
  constructor
  · intro h
    split_ifs at h
    cases h
    exact ⟨rfl, rfl⟩
  · rintro ⟨rfl, rfl⟩
    rw [dif_neg (by simp [app.appId_nonblank]), dif_neg (not_isSomeBlank app.profile_nonblank)]

/-- `Binding`. -/
inductive Binding where
  | sticky (app : AppRef)
  | cycle (candidates : List AppRef) (h : 2 ≤ candidates.length)
  | pattern (appId : String) (titleRegex : Option String) (ha : blank appId = false)
      (ht : ∀ t, titleRegex = some t → blank t = false)
  | flex
  deriving DecidableEq

/-- `Binding::cycle`. -/
def Binding.newCycle (candidates : List AppRef) : Except BindingError Binding :=
  if h : candidates.length < 2 then .error .cycleNeedsCandidates
  else .ok (.cycle candidates (Nat.le_of_not_lt h))

/-- `Binding::pattern`. -/
def Binding.newPattern (appId : String) (titleRegex : Option String) :
    Except BindingError Binding :=
  if ha : blank appId = true then .error .emptyAppId
  else if ht : isSomeBlank titleRegex = true then .error .emptyTitle
  else .ok (.pattern appId titleRegex (eq_false_of_ne_true ha) (nonblank_of_not_isSomeBlank ht))

theorem Binding.newCycle_eq_ok {candidates : List AppRef} {b : Binding} :
    Binding.newCycle candidates = .ok b ↔ ∃ h, b = .cycle candidates h := by
  unfold Binding.newCycle
  constructor
  · intro h
    split_ifs at h
    cases h
    exact ⟨_, rfl⟩
  · rintro ⟨hlen, rfl⟩
    rw [dif_neg (by omega)]

theorem Binding.newPattern_eq_ok {appId : String} {titleRegex : Option String} {b : Binding} :
    Binding.newPattern appId titleRegex = .ok b ↔ ∃ ha ht, b = .pattern appId titleRegex ha ht := by
  unfold Binding.newPattern
  constructor
  · intro h
    split_ifs at h
    cases h
    exact ⟨_, _, rfl⟩
  · rintro ⟨ha, ht, rfl⟩
    rw [dif_neg (by simp [ha]), dif_neg (not_isSomeBlank ht)]

/-- `Role`. -/
structure Role where
  name : String
  monitor : String
  region : Region
  binding : Binding
  name_nonblank : blank name = false
  monitor_nonblank : blank monitor = false
  deriving DecidableEq

/-- `RoleError`. -/
inductive RoleError where
  | emptyName
  | emptyMonitor
  deriving DecidableEq

def RoleError.display : RoleError → String
  | .emptyName => "role name must be non-empty"
  | .emptyMonitor => "role monitor must be non-empty"

/-- `Role::new`. -/
def Role.new (name monitor : String) (region : Region) (binding : Binding) :
    Except RoleError Role :=
  if hn : blank name = true then .error .emptyName
  else if hm : blank monitor = true then .error .emptyMonitor
  else .ok ⟨name, monitor, region, binding, eq_false_of_ne_true hn, eq_false_of_ne_true hm⟩

theorem Role.new_eq_ok {name monitor : String} {region : Region} {binding : Binding} {r : Role} :
    Role.new name monitor region binding = .ok r ↔
      r.name = name ∧ r.monitor = monitor ∧ r.region = region ∧ r.binding = binding := by
  unfold Role.new
  constructor
  · intro h
    split_ifs at h
    cases h
    exact ⟨rfl, rfl, rfl, rfl⟩
  · rintro ⟨rfl, rfl, rfl, rfl⟩
    rw [dif_neg (by simp [r.name_nonblank]), dif_neg (by simp [r.monitor_nonblank])]

/-! ## `System` and `Config` -/

/-- The loop over `seen.insert`: the first name that is there a second time. -/
def firstDuplicate (seen : List String) : List String → Option String
  | [] => none
  | n :: ns => if n ∈ seen then some n else firstDuplicate (n :: seen) ns

theorem firstDuplicate_eq_none {seen ns : List String} :
    firstDuplicate seen ns = none ↔ ns.Nodup ∧ ∀ n ∈ ns, n ∉ seen := by
  induction ns generalizing seen with
  | nil => simp [firstDuplicate]
  | cons n ns ih =>
    unfold firstDuplicate
    by_cases hn : n ∈ seen
    · simp [hn]
    · rw [if_neg hn, ih, List.nodup_cons]
      simp only [List.mem_cons, not_or, forall_eq_or_imp]
      constructor
      · rintro ⟨hnodup, hall⟩
        exact ⟨⟨fun hmem => (hall n hmem).1 rfl, hnodup⟩, hn, fun m hm => (hall m hm).2⟩
      · rintro ⟨⟨hnotMem, hnodup⟩, -, hall⟩
        refine ⟨hnodup, fun m hm => ⟨?_, hall m hm⟩⟩
        rintro rfl
        exact hnotMem hm

theorem nodup_of_firstDuplicate {ns : List String} (h : firstDuplicate [] ns = none) : ns.Nodup :=
  (firstDuplicate_eq_none.mp h).1

/-- `System`. -/
structure System where
  name : String
  roles : List Role
  name_nonblank : blank name = false
  roles_nodup : (roles.map Role.name).Nodup
  deriving DecidableEq

/-- `SystemError`. -/
inductive SystemError where
  | emptyName
  | duplicateRole (name : String)
  deriving DecidableEq

def SystemError.display : SystemError → String
  | .emptyName => "system name must be non-empty"
  | .duplicateRole name => "duplicate role name within system: " ++ name

/-- `System::new`. -/
def System.new (name : String) (roles : List Role) : Except SystemError System :=
  if hn : blank name = true then .error .emptyName
  else
    match hd : firstDuplicate [] (roles.map Role.name) with
    | some dup => .error (.duplicateRole dup)
    | none => .ok ⟨name, roles, eq_false_of_ne_true hn, nodup_of_firstDuplicate hd⟩

theorem System.new_eq_ok {name : String} {roles : List Role} {s : System} :
    System.new name roles = .ok s ↔ s.name = name ∧ s.roles = roles := by
  unfold System.new
  constructor
  · intro h
    split_ifs at h
    split at h
    · cases h
    · cases h
      exact ⟨rfl, rfl⟩
  · rintro ⟨rfl, rfl⟩
    have hnone : firstDuplicate [] (s.roles.map Role.name) = none :=
      firstDuplicate_eq_none.mpr ⟨s.roles_nodup, by simp⟩
    rw [dif_neg (by simp [s.name_nonblank])]
    split
    · rename_i hsome
      cases hnone.symm.trans hsome
    · rfl

/-- `Config`. -/
structure Config where
  systems : List System
  systems_ne_nil : systems ≠ []
  systems_nodup : (systems.map System.name).Nodup
  deriving DecidableEq

/-- `ConfigError`. -/
inductive ConfigError where
  | empty
  | duplicateSystem (name : String)
  deriving DecidableEq

def ConfigError.display : ConfigError → String
  | .empty => "config must define at least one system"
  | .duplicateSystem name => "duplicate system name: " ++ name

/-- `Config::new`. -/
def Config.new (systems : List System) : Except ConfigError Config :=
  if he : systems = [] then .error .empty
  else
    match hd : firstDuplicate [] (systems.map System.name) with
    | some dup => .error (.duplicateSystem dup)
    | none => .ok ⟨systems, he, nodup_of_firstDuplicate hd⟩

theorem Config.new_eq_ok {systems : List System} {cfg : Config} :
    Config.new systems = .ok cfg ↔ cfg.systems = systems := by
  unfold Config.new
  constructor
  · intro h
    split_ifs at h
    split at h
    · cases h
    · cases h
      rfl
  · rintro rfl
    have hnone : firstDuplicate [] (cfg.systems.map System.name) = none :=
      firstDuplicate_eq_none.mpr ⟨cfg.systems_nodup, by simp⟩
    rw [dif_neg cfg.systems_ne_nil]
    split
    · rename_i hsome
      cases hnone.symm.trans hsome
    · rfl

/-- No two names, no duplicate. -/
theorem Config.new_ne_duplicateSystem {systems : List System}
    (hnodup : (systems.map System.name).Nodup) (name : String) :
    Config.new systems ≠ .error (.duplicateSystem name) := by
  unfold Config.new
  split
  · simp
  · split
    · rename_i hsome
      cases (firstDuplicate_eq_none.mpr ⟨hnodup, by simp⟩).symm.trans hsome
    · simp

end Halmasuit.Kushuh
