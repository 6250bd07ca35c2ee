import Mathlib.Data.List.Infix
import Halmasuit.Lib.Text

/-!
# The device that the environment names

Model of `PciBdf::parse`, `DrmDeviceSpec::from_env_value` and `is_dev_dri_card_path` (`drm.rs`). A
string is its UTF-8 bytes, which is what the lengths of the source count.

The comment of `PciBdf::parse` wants pure hex in each field, the reader of numbers that it uses also
takes a sign. So `+000:00:00.0` is a BDF to the source.

- `Shaped` is the form `DDDD:BB:DD.F` over what a field may be, `IsBdf` the documented one;
- `parse_eq_ok`: the strings that are parsed are the `Shaped` ones whose fields are digits, with a
  sign for the first of them or without;
- `grammar_iff`: the grammar is the documented one away from the `Signed` strings.
-/

namespace Halmasuit.Drm.DeviceSpec

open Lib.Text

/-! ## The code -/

/-- `u8::to_ascii_lowercase`. -/
def toAsciiLowercase (b : UInt8) : UInt8 := if 0x41 ≤ b ∧ b ≤ 0x5a then b + 0x20 else b

/-- `BdfParseError`. -/
inductive BdfParseError where
  | badFormat
  | badFunction
  deriving DecidableEq

/-- The texts name the form, never the string that was refused. -/
def BdfParseError.display : BdfParseError → String
  | .badFormat => "PCI BDF must be 'DDDD:BB:DD.F'"
  | .badFunction => "PCI BDF function digit must be 0-7"

/-- `PciBdf`. -/
structure PciBdf where
  str : List UInt8
  deriving DecidableEq

/-- `PciBdf::parse`. -/
def PciBdf.parse (s : List UInt8) : Except BdfParseError PciBdf :=
  match rsplitOnce 0x2e s with
  | none => .error .badFormat
  | some (domainBusDev, function) =>
    if function.length ≠ 1 then .error .badFormat
    else
      match fromStrRadix16 256 function with
      | none => .error .badFormat
      | some functionDigit =>
        if functionDigit > 7 then .error .badFunction
        else
          match domainBusDev.splitOn 0x3a with
          | [domain, bus, device] =>
            if domain.length ≠ 4 ∨ bus.length ≠ 2 ∨ device.length ≠ 2 then .error .badFormat
            else if (fromStrRadix16 4294967296 domain).isNone then .error .badFormat
            else if (fromStrRadix16 256 bus).isNone then .error .badFormat
            else if (fromStrRadix16 256 device).isNone then .error .badFormat
            else .ok ⟨s.map toAsciiLowercase⟩
          | _ => .error .badFormat

/-- `DrmDeviceSpec`. -/
inductive DrmDeviceSpec where
  | auto
  | path (p : List UInt8)
  | pci (bdf : PciBdf)
  deriving DecidableEq

/-- `DrmDeviceSpecParseError`. -/
inductive DrmDeviceSpecParseError where
  | badBdf (e : BdfParseError)
  | badPath
  deriving DecidableEq

def DrmDeviceSpecParseError.display : DrmDeviceSpecParseError → String
  | .badBdf _ => "HALMASUIT_DRM_DEVICE pci: value did not parse as a BDF"
  | .badPath => "HALMASUIT_DRM_DEVICE path must match /dev/dri/card[0-9]+"

/-- `u8::is_ascii_digit`. -/
def isAsciiDigit (b : UInt8) : Bool := decide (0x30 ≤ b ∧ b ≤ 0x39)

/-- `pci:`. -/
def pciPrefix : List UInt8 := [0x70, 0x63, 0x69, 0x3a]

/-- `/dev/dri/card`. -/
def cardPrefix : List UInt8 :=
  [0x2f, 0x64, 0x65, 0x76, 0x2f, 0x64, 0x72, 0x69, 0x2f, 0x63, 0x61, 0x72, 0x64]

/-- `is_dev_dri_card_path`. -/
def isDevDriCardPath (s : List UInt8) : Bool :=
  match s.dropPrefix? cardPrefix with
  | none => false
  | some rest => !rest.isEmpty && rest.all isAsciiDigit

/-- `DrmDeviceSpec::from_env_value`. -/
def DrmDeviceSpec.fromEnvValue (s : List UInt8) : Except DrmDeviceSpecParseError DrmDeviceSpec :=
  if s = [] then .ok .auto
  else
    match s.dropPrefix? pciPrefix with
    | some rest =>
      match PciBdf.parse rest with
      | .ok bdf => .ok (.pci bdf)
      | .error e => .error (.badBdf e)
    | none => if isDevDriCardPath s then .ok (.path s) else .error .badPath

/-! ## The grammar -/

/-- `DDDD:BB:DD.F`, for what a field of `n` letters may be. -/
def Shaped (Field : Nat → List UInt8 → Prop) (s : List UInt8) : Prop :=
  ∃ domain bus device f, s = domain ++ 0x3a :: (bus ++ 0x3a :: device) ++ 0x2e :: [f] ∧
    Field 4 domain ∧ Field 2 bus ∧ Field 2 device ∧ 0x30 ≤ f ∧ f ≤ 0x37

/-- A field of hexadecimal digits. -/
def HexField (n : Nat) (s : List UInt8) : Prop := s.length = n ∧ ∀ b ∈ s, IsHex b

/-- A field of hexadecimal digits, or of a `+` and one digit less. -/
def SignedField (n : Nat) (s : List UInt8) : Prop :=
  HexField n s ∨ ∃ r, s = 0x2b :: r ∧ HexField (n - 1) r

/-- The documented form of a BDF. -/
def IsBdf : List UInt8 → Prop := Shaped HexField

/-- The form of a BDF, but with a sign for the first digit of a field. -/
def Signed (s : List UInt8) : Prop := Shaped SignedField s ∧ 0x2b ∈ s

/-- What the documentation says of one string. -/
def Documented (s : List UInt8) : Prop :=
  ((∃ bdf, PciBdf.parse s = .ok bdf) ↔ IsBdf s) ∧
  (∀ bdf, PciBdf.parse s = .ok bdf →
    bdf.str = s.map toAsciiLowercase ∧ PciBdf.parse bdf.str = .ok bdf) ∧
  ((∃ spec, DrmDeviceSpec.fromEnvValue s = .ok spec) ↔
    s = [] ∨ (∃ r, s = pciPrefix ++ r ∧ IsBdf r) ∨
      ∃ r, s = cardPrefix ++ r ∧ r ≠ [] ∧ ∀ b ∈ r, isAsciiDigit b = true)

/-! ## Fields -/

/-- A field of the right length that is read as a number. -/
theorem signedField_iff {n : Nat} {s : List UInt8} (bound : Nat) (hn : 2 ≤ n)
    (hb : 16 ^ n ≤ bound) :
    SignedField n s ↔ s.length = n ∧ ¬ (fromStrRadix16 bound s).isNone = true := by
  rw [Bool.not_eq_true, Option.isNone_eq_false_iff]
  constructor
  · rintro (⟨hs, h⟩ | ⟨r, rfl, hr, h⟩)
    · refine ⟨hs, (fromStrRadix16_isSome_iff (by rw [hs]; exact hb)).mpr (.inl ⟨?_, h⟩)⟩
      rintro rfl
      simp at hs
      omega
    · have hs : (0x2b :: r).length = n := by
        rw [List.length_cons, hr]
        omega
      refine ⟨hs, (fromStrRadix16_isSome_iff (by rw [hs]; exact hb)).mpr (.inr ⟨r, rfl, ?_, h⟩)⟩
      rintro rfl
      simp at hr
      omega
  · rintro ⟨hs, h⟩
    rcases (fromStrRadix16_isSome_iff (by rw [hs]; exact hb)).mp h with ⟨-, h⟩ | ⟨r, rfl, -, h⟩
    · exact .inl ⟨hs, h⟩
    · refine .inr ⟨r, rfl, ?_, h⟩
      rw [← hs]
      simp

/-- The function is one octal digit. -/
theorem fromStrRadix16_function {f : UInt8} :
    (∃ d, fromStrRadix16 256 [f] = some d ∧ ¬ d > 7) ↔ 0x30 ≤ f ∧ f ≤ 0x37 := by
  have hf : fromStrRadix16 256 [f] = toDigit16 f := by
    by_cases hx : IsHex f
    · obtain ⟨d, hd, heq⟩ := toDigit16_of_isHex hx
      have hplus : f ≠ 0x2b := by
        rintro rfl
        exact absurd hx (by decide)
      have hlt : d < 256 := by omega
      simp only [fromStrRadix16, digits16, if_neg hplus, heq, Nat.zero_mul, Nat.zero_add,
        if_pos hlt]
    · simp [fromStrRadix16, digits16, toDigit16_eq_none hx]
  simp only [hf, toDigit16, UInt8.le_iff_toNat_le, UInt8.reduceToNat]
  constructor
  · rintro ⟨d, hd, hseven⟩
    split_ifs at hd <;> cases hd <;> omega
  · intro h
    rw [if_pos (by omega)]
    exact ⟨_, rfl, by omega⟩

theorem SignedField.mem {n : Nat} {s : List UInt8} (h : SignedField n s) {b : UInt8}
    (hb : b ∈ s) : b = 0x2b ∨ IsHex b := by
  rcases h with h | ⟨r, rfl, -, hr⟩
  · exact .inr (h.2 b hb)
  · exact (List.mem_cons.mp hb).imp_right (hr b)

/-- Neither separator is a letter of a field. -/
theorem SignedField.colon_notMem {n : Nat} {s : List UInt8} (h : SignedField n s) :
    0x3a ∉ s := by
  intro hmem
  exact absurd (h.mem hmem) (by decide)

theorem isHex_toAsciiLowercase {b : UInt8} (h : IsHex b) : IsHex (toAsciiLowercase b) := by
  unfold toAsciiLowercase
  split
  · rename_i hup
    simp only [IsHex, UInt8.le_iff_toNat_le, UInt8.reduceToNat, UInt8.toNat_add] at h hup ⊢
    omega
  · exact h

@[simp] theorem toAsciiLowercase_idem (b : UInt8) :
    toAsciiLowercase (toAsciiLowercase b) = toAsciiLowercase b := by
  unfold toAsciiLowercase
  split
  · rename_i hup
    rw [if_neg]
    simp only [UInt8.le_iff_toNat_le, UInt8.reduceToNat, UInt8.toNat_add] at hup ⊢
    omega
  · rfl

theorem HexField.lower {n : Nat} {s : List UInt8} (h : HexField n s) :
    HexField n (s.map toAsciiLowercase) := by
  refine ⟨(List.length_map _).trans h.1, ?_⟩
  rintro b hb
  obtain ⟨a, ha, rfl⟩ := List.mem_map.mp hb
  exact isHex_toAsciiLowercase (h.2 a ha)

theorem SignedField.lower {n : Nat} {s : List UInt8} (h : SignedField n s) :
    SignedField n (s.map toAsciiLowercase) := by
  rcases h with h | ⟨r, rfl, hr⟩
  · exact .inl h.lower
  · exact .inr ⟨r.map toAsciiLowercase, rfl, hr.lower⟩

/-! ## The parser -/

theorem Shaped.imp {F G : Nat → List UInt8 → Prop} {s : List UInt8} (h : Shaped F s)
    (hFG : ∀ n l, F n l → G n l) : Shaped G s := by
  obtain ⟨domain, bus, device, f, rfl, h4, hb, hd, hf⟩ := h
  exact ⟨domain, bus, device, f, rfl, hFG _ _ h4, hFG _ _ hb, hFG _ _ hd, hf⟩

theorem eq_append_of_splitOn {l domain bus device : List UInt8}
    (h : l.splitOn 0x3a = [domain, bus, device]) :
    l = domain ++ 0x3a :: (bus ++ 0x3a :: device) := by
  have hcolons : [0x3a].intercalate (l.splitOn 0x3a) = l := List.intercalate_splitOn 0x3a
  rw [h] at hcolons
  simp [← hcolons]

theorem splitOn_append {domain bus device : List UInt8} (hdomain : 0x3a ∉ domain)
    (hbus : 0x3a ∉ bus) (hdevice : 0x3a ∉ device) :
    (domain ++ 0x3a :: (bus ++ 0x3a :: device)).splitOn 0x3a = [domain, bus, device] := by
  have hall : ∀ part ∈ [domain, bus, device], 0x3a ∉ part := by
    simp [hdomain, hbus, hdevice]
  simpa using List.splitOn_intercalate 0x3a hall (by simp)

theorem shaped_of_parse {s : List UInt8} {bdf : PciBdf} (h : PciBdf.parse s = .ok bdf) :
    Shaped SignedField s ∧ bdf = ⟨s.map toAsciiLowercase⟩ := by
  unfold PciBdf.parse at h
  split at h
  · cases h
  rename_i domainBusDev function hdot
  split at h
  · cases h
  rename_i hlen
  split at h
  · cases h
  rename_i d hd
  split at h
  · cases h
  rename_i hseven
  split at h
  · rename_i domain bus device hparts
    split_ifs at h with hlens hdomain hbus hdevice
    cases h
    obtain ⟨f, rfl⟩ := List.length_eq_one_iff.mp (not_not.mp hlen)
    obtain ⟨rfl, -⟩ := rsplitOnce_eq_some.mp hdot
    obtain rfl := eq_append_of_splitOn hparts
    simp only [not_or, not_not] at hlens
    refine ⟨⟨domain, bus, device, f, rfl, ?_, ?_, ?_, ?_⟩, rfl⟩
    · exact (signedField_iff 4294967296 (by omega) (by decide)).mpr ⟨hlens.1, hdomain⟩
    · exact (signedField_iff 256 (by omega) (by decide)).mpr ⟨hlens.2.1, hbus⟩
    · exact (signedField_iff 256 (by omega) (by decide)).mpr ⟨hlens.2.2, hdevice⟩
    · exact fromStrRadix16_function.mp ⟨d, hd, hseven⟩
  · cases h

theorem parse_of_shaped {s : List UInt8} (h : Shaped SignedField s) :
    PciBdf.parse s = .ok ⟨s.map toAsciiLowercase⟩ := by
  obtain ⟨domain, bus, device, f, rfl, hdomain, hbus, hdevice, hf⟩ := h
  have hdot : rsplitOnce 0x2e (domain ++ 0x3a :: (bus ++ 0x3a :: device) ++ 0x2e :: [f]) =
      some (domain ++ 0x3a :: (bus ++ 0x3a :: device), [f]) := by
    refine rsplitOnce_eq_some.mpr ⟨rfl, ?_⟩
    rw [List.mem_singleton]
    rintro rfl
    exact absurd hf (by decide)
  have hparts := splitOn_append hdomain.colon_notMem hbus.colon_notMem hdevice.colon_notMem
  obtain ⟨d, hd, hseven⟩ := fromStrRadix16_function.mpr hf
  have h1 := (signedField_iff 4294967296 (by omega) (by decide)).mp hdomain
  have h2 := (signedField_iff 256 (by omega) (by decide)).mp hbus
  have h3 := (signedField_iff 256 (by omega) (by decide)).mp hdevice
  simp only [PciBdf.parse, hdot, hd, hparts, if_neg hseven, h1, h2, h3, List.length_singleton,
    ne_eq, not_true_eq_false, or_self, if_false]
  simp

theorem parse_eq_ok {s : List UInt8} {bdf : PciBdf} :
    PciBdf.parse s = .ok bdf ↔ Shaped SignedField s ∧ bdf = ⟨s.map toAsciiLowercase⟩ := by
  constructor
  · exact shaped_of_parse
  · rintro ⟨hs, rfl⟩
    exact parse_of_shaped hs

theorem parse_ok_iff {s : List UInt8} :
    (∃ bdf, PciBdf.parse s = .ok bdf) ↔ Shaped SignedField s := by
  constructor
  · rintro ⟨bdf, h⟩
    exact (parse_eq_ok.mp h).1
  · intro h
    exact ⟨_, parse_eq_ok.mpr ⟨h, rfl⟩⟩

theorem Shaped.lower {s : List UInt8} (h : Shaped SignedField s) :
    Shaped SignedField (s.map toAsciiLowercase) := by
  obtain ⟨domain, bus, device, f, rfl, hdomain, hbus, hdevice, hf⟩ := h
  have hlow : toAsciiLowercase f = f := by
    simp only [UInt8.le_iff_toNat_le, UInt8.reduceToNat] at hf
    simp only [toAsciiLowercase, UInt8.le_iff_toNat_le, UInt8.reduceToNat]
    rw [if_neg (by omega)]
  refine ⟨_, _, _, f, ?_, hdomain.lower, hbus.lower, hdevice.lower, hf⟩
  simp [hlow]
  decide

/-- What is stored reads back as itself. -/
theorem parse_str {s : List UInt8} {bdf : PciBdf} (h : PciBdf.parse s = .ok bdf) :
    PciBdf.parse bdf.str = .ok bdf := by
  obtain ⟨hs, rfl⟩ := parse_eq_ok.mp h
  refine parse_eq_ok.mpr ⟨hs.lower, ?_⟩
  simp [Function.comp_def]

/-- A string of the form is a BDF, unless there is a sign in it. -/
theorem shaped_iff {s : List UInt8} : Shaped SignedField s ↔ IsBdf s ∨ Signed s := by
  constructor
  · intro h
    by_cases hplus : 0x2b ∈ s
    · exact .inr ⟨h, hplus⟩
    · left
      obtain ⟨domain, bus, device, f, rfl, hdomain, hbus, hdevice, hf⟩ := h
      simp only [List.mem_append, List.mem_cons, not_or] at hplus
      have hpure : ∀ {n l}, SignedField n l → 0x2b ∉ l → HexField n l := by
        rintro n l (h | ⟨r, rfl, -⟩) hno
        · exact h
        · exact absurd List.mem_cons_self hno
      exact ⟨domain, bus, device, f, rfl, hpure hdomain hplus.1.1, hpure hbus hplus.1.2.2.1,
        hpure hdevice hplus.1.2.2.2.2, hf⟩
  · rintro (h | h)
    · exact h.imp fun n l hl => .inl hl
    · exact h.1

theorem IsBdf.not_signed {s : List UInt8} (h : IsBdf s) : ¬ Signed s := by
  rintro ⟨-, hplus⟩
  obtain ⟨domain, bus, device, f, rfl, hdomain, hbus, hdevice, hf⟩ := h
  have hpure : ∀ {n l}, HexField n l → 0x2b ∉ l := fun hl hmem =>
    absurd (hl.2 _ hmem) (by decide)
  simp only [List.mem_append, List.mem_cons, hpure hdomain, hpure hbus, hpure hdevice,
    List.not_mem_nil, or_false, false_or] at hplus
  rcases hplus with (hplus | hplus) | hplus | rfl
  · exact absurd hplus (by decide)
  · exact absurd hplus (by decide)
  · exact absurd hplus (by decide)
  · exact absurd hf (by decide)

/-- The strings that are parsed are the documented ones and the signed ones. -/
theorem parse_documented_iff {s : List UInt8} :
    ((∃ bdf, PciBdf.parse s = .ok bdf) ↔ IsBdf s) ↔ ¬ Signed s := by
  rw [parse_ok_iff, shaped_iff]
  constructor
  · intro h hs
    exact (h.mp (.inr hs)).not_signed hs
  · intro h
    exact ⟨fun hs => hs.resolve_right h, .inl⟩

/-! ## The value of the environment -/

theorem dropPrefix?_eq_some {p s r : List UInt8} : s.dropPrefix? p = some r ↔ s = p ++ r := by
  rw [List.dropPrefix?_eq_some_iff]
  constructor
  · rintro ⟨p', rfl, hp⟩
    rw [eq_of_beq hp]
  · rintro rfl
    exact ⟨p, rfl, beq_self_eq_true p⟩

theorem isDevDriCardPath_iff {s : List UInt8} :
    isDevDriCardPath s = true ↔
      ∃ r, s = cardPrefix ++ r ∧ r ≠ [] ∧ ∀ b ∈ r, isAsciiDigit b = true := by
  unfold isDevDriCardPath
  cases h : s.dropPrefix? cardPrefix with
  | none =>
    refine iff_of_false nofun ?_
    rintro ⟨r, hr, -⟩
    rw [dropPrefix?_eq_some.mpr hr] at h
    cases h
  | some rest =>
    obtain rfl := dropPrefix?_eq_some.mp h
    simp

theorem fromEnvValue_ok_iff {s : List UInt8} :
    (∃ spec, DrmDeviceSpec.fromEnvValue s = .ok spec) ↔
      s = [] ∨ (∃ r, s = pciPrefix ++ r ∧ ∃ bdf, PciBdf.parse r = .ok bdf) ∨
        ∃ r, s = cardPrefix ++ r ∧ r ≠ [] ∧ ∀ b ∈ r, isAsciiDigit b = true := by
  unfold DrmDeviceSpec.fromEnvValue
  by_cases hs : s = []
  · simp [hs]
  rw [if_neg hs]
  cases h : s.dropPrefix? pciPrefix with
  | none =>
    have hno : ∀ r, s ≠ pciPrefix ++ r := by
      intro r hr
      rw [dropPrefix?_eq_some.mpr hr] at h
      cases h
    rw [← isDevDriCardPath_iff]
    by_cases hcard : isDevDriCardPath s = true <;> simp [hs, hno, hcard]
  | some rest =>
    obtain rfl := dropPrefix?_eq_some.mp h
    have hcard : ∀ r, pciPrefix ++ rest ≠ cardPrefix ++ r := by
      intro r hr
      exact absurd (List.cons.inj hr).1 (by decide)
    cases hparse : PciBdf.parse rest <;> simp [hs, hcard, hparse]

/-! ## The grammar and the code -/

/-- The code keeps to the documentation at the strings in which no sign stands for a digit. -/
theorem grammar_iff (s : List UInt8) :
    Documented s ↔ ¬ Signed s ∧ ∀ r, s = pciPrefix ++ r → ¬ Signed r := by
  have hstored : ∀ bdf, PciBdf.parse s = .ok bdf →
      bdf.str = s.map toAsciiLowercase ∧ PciBdf.parse bdf.str = .ok bdf := by
    intro bdf h
    exact ⟨congrArg PciBdf.str (parse_eq_ok.mp h).2, parse_str h⟩
  unfold Documented
  rw [parse_documented_iff, fromEnvValue_ok_iff]
  constructor
  · rintro ⟨hs, -, henv⟩
    refine ⟨hs, ?_⟩
    rintro r rfl hr
    have hok := henv.mp (.inr (.inl ⟨r, rfl, parse_ok_iff.mpr hr.1⟩))
    rcases hok with hnil | ⟨r', heq, hbdf⟩ | ⟨r', heq, -⟩
    · cases hnil
    · obtain rfl := List.append_cancel_left heq
      exact hbdf.not_signed hr
    · exact absurd (List.cons.inj heq).1 (by decide)
  · rintro ⟨hs, hpci⟩
    refine ⟨hs, hstored, or_congr_right (or_congr_left (exists_congr fun r => and_congr_right ?_))⟩
    intro heq
    exact parse_documented_iff.mpr (hpci r heq)

/-- `+000:00:00.0`. -/
def signedZero : List UInt8 :=
  [0x2b, 0x30, 0x30, 0x30, 0x3a, 0x30, 0x30, 0x3a, 0x30, 0x30, 0x2e, 0x30]

/-- The source parses `+000:00:00.0`, which is not four hexadecimal digits and the rest. -/
theorem signed_is_parsed :
    PciBdf.parse signedZero = .ok ⟨signedZero⟩ ∧ ¬ IsBdf signedZero ∧ ¬ Documented signedZero := by
  have hparse : PciBdf.parse signedZero = .ok ⟨signedZero⟩ := by decide
  have hsigned : Signed signedZero := ⟨parse_ok_iff.mp ⟨_, hparse⟩, by decide⟩
  exact ⟨hparse, fun h => h.not_signed hsigned, fun h => ((parse_documented_iff.mp h.1) hsigned)⟩

end Halmasuit.Drm.DeviceSpec
