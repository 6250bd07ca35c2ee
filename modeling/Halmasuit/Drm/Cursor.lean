import Halmasuit.Lib.Machine
import Halmasuit.Lib.Timeline
import Mathlib.Data.List.MinMax
import Mathlib.Data.List.Nodup

/-!
# Cursors

Model of `cursor.rs`: the images of a cursor of the theme, of several sizes and with a delay each,
and `current_frame`, which picks the one that is to be shown at a time.

A reference to an image is the image with its place among the others.

- `walk_eq`: the loop over the images of a size is the timeline of their delays;
- `currentFrame_eq`: what `current_frame` is where the sum of the delays is what is computed;
- `currentFrame_iff`: it is the right image at all times exactly if that sum fits its type.
-/

namespace Halmasuit.Drm.Cursor

open Lib.Machine Lib.Timeline

/-! ## The code -/

/-- `xcursor::parser::Image`, without the second copy of its pixels. -/
structure Image where
  size : UInt32
  width : UInt32
  height : UInt32
  xhot : UInt32
  yhot : UInt32
  delay : UInt32
  pixelsRgba : List UInt8
  deriving DecidableEq

/-- `CursorIcons`. -/
structure CursorIcons where
  icons : List Image
  nominalSize : UInt32
  nonempty : icons ≠ []

/-- `CursorIcons::from_theme`, from what the file of the icon is parsed to. -/
def CursorIcons.fromTheme (parsed : Option (List Image)) (size : UInt32) : Option CursorIcons :=
  parsed.bind fun icons => if h : icons ≠ [] then some ⟨icons, size, h⟩ else none

/-- `CursorTheming::procedural_fallback`. -/
def proceduralFallback (size : UInt32) : CursorIcons where
  icons :=
    let s := max size.toNat 8
    let dim := UInt32.ofNat (s % 65536)
    [{ size := size, width := dim, height := dim, xhot := 0, yhot := 0, delay := 0
       pixelsRgba := (List.range s).flatMap fun y => (List.range s).flatMap fun x =>
         List.replicate 4 (if x ≤ y ∧ x + y ≤ s then 0xff else 0) }]
  nominalSize := size
  nonempty := by simp

/-- `CursorTheming`, with the theme as what the file of each of its icons is parsed to. -/
structure CursorTheming where
  theme : String → Option (List Image)
  size : UInt32
  default : CursorIcons

/-- `CursorTheming::load`, from the theme and the size that the environment names. -/
def CursorTheming.load (theme : String → Option (List Image)) (size : UInt32) : CursorTheming where
  theme := theme
  size := size
  default := ((CursorIcons.fromTheme (theme "default") size).or
    (CursorIcons.fromTheme (theme "left_ptr") size)).getD (proceduralFallback size)

/-- `CursorTheming::load_named`. -/
def CursorTheming.loadNamed (t : CursorTheming) (name : String) : CursorIcons :=
  (CursorIcons.fromTheme (t.theme name) t.size).getD t.default

/-- A reference to an image. -/
structure Frame where
  image : Image
  place : Nat
  deriving DecidableEq

/-- `icons.iter()`. -/
def CursorIcons.frames (c : CursorIcons) : List Frame :=
  c.icons.zipIdx.map fun i => ⟨i.1, i.2⟩

/-- How far the size of an image is from the nominal one. -/
def CursorIcons.distance (c : CursorIcons) (f : Frame) : Nat :=
  ((f.image.size.toNat : Int) - c.nominalSize.toNat).natAbs

/-- The images as wide and as high as this one. -/
def CursorIcons.variants (c : CursorIcons) (nearest : Frame) : List Frame :=
  c.frames.filter fun f => f.image.width = nearest.image.width ∧
    f.image.height = nearest.image.height

def delay (f : Frame) : Nat := f.image.delay.toNat

/-- The values of a `u32`. -/
def u32 : Nat := 4294967296

/-- The sum of the delays. -/
def delaySum (build : Build) (variants : List Frame) : Option Nat :=
  variants.foldlM (fun sum f => unsigned build u32 (sum + delay f)) 0

/-- The loop of `current_frame`. The end of it is `unreachable!`. -/
def walk (build : Build) : Nat → List Frame → Option Frame
  | _, [] => none
  | millis, f :: variants =>
    if millis < delay f then some f
    else do
      let millis ← unsignedSub build u32 millis (delay f)
      walk build millis variants

/-- `Duration`. -/
structure Duration where
  secs : UInt64
  nanos : UInt32
  nanos_lt : nanos.toNat < 1000000000
  deriving DecidableEq

/-- `Duration::as_millis`. -/
def Duration.asMillis (d : Duration) : Nat := d.secs.toNat * 1000 + d.nanos.toNat / 1000000

/-- `current_frame`. Nothing comes out of it where it panics. -/
def currentFrame (build : Build) (c : CursorIcons) (time : Duration) : Option Frame := do
  let nearest ← c.frames.argmin c.distance
  let variants := c.variants nearest
  let total ← delaySum build variants
  if total = 0 then variants.head?
  else walk build (time.asMillis % u32 % total) variants

/-! ## What is to be shown -/

/-- The first of the images whose size is nearest. -/
def Nearest (c : CursorIcons) (f : Frame) : Prop :=
  f ∈ c.frames ∧ (∀ g ∈ c.frames, c.distance f ≤ c.distance g) ∧
    ∀ g ∈ c.frames, c.distance g ≤ c.distance f → c.frames.idxOf f ≤ c.frames.idxOf g

/-- **The image is the one of the nearest size whose time it is**, and the first one if none has a
time. -/
def Shown (c : CursorIcons) (time : Duration) (f : Frame) : Prop :=
  ∃ nearest, Nearest c nearest ∧
    (total delay (c.variants nearest) = 0 → (c.variants nearest).head? = some f) ∧
    (total delay (c.variants nearest) ≠ 0 → 0 < delay f ∧
      OnAt delay (c.variants nearest)
        (time.asMillis % u32 % total delay (c.variants nearest)) f)

/-- The delays of the images of the nearest size are short enough for their sum to fit its type. -/
def Short (c : CursorIcons) : Prop :=
  ∃ nearest, Nearest c nearest ∧ total delay (c.variants nearest) < u32

/-! ## The loops -/

theorem foldlM_checked {variants : List Frame} {acc sum : Nat} (hacc : acc < u32) :
    variants.foldlM (fun sum f => unsigned .checked u32 (sum + delay f)) acc = some sum ↔
      acc + total delay variants < u32 ∧ sum = acc + total delay variants := by
  induction variants generalizing acc with
  | nil => simp [hacc, eq_comm]
  | cons f variants ih =>
    rw [List.foldlM_cons, Option.bind_eq_bind, Option.bind_eq_some_iff, total_cons,
      ← Nat.add_assoc]
    constructor
    · rintro ⟨next, hnext, hrest⟩
      obtain ⟨hlt, rfl⟩ := unsigned_checked.mp hnext
      exact (ih hlt).mp hrest
    · rintro ⟨hlt, rfl⟩
      have hnext : acc + delay f < u32 := by omega
      exact ⟨_, unsigned_of_lt hnext, (ih hnext).mpr ⟨hlt, rfl⟩⟩

theorem foldlM_wrapping {variants : List Frame} {acc : Nat} (hacc : acc < u32) :
    variants.foldlM (fun sum f => unsigned .wrapping u32 (sum + delay f)) acc
      = some ((acc + total delay variants) % u32) := by
  induction variants generalizing acc with
  | nil => simp [Nat.mod_eq_of_lt hacc]
  | cons f variants ih =>
    rw [List.foldlM_cons, unsigned_wrapping, Option.bind_eq_bind, Option.bind_some,
      ih (Nat.mod_lt _ (by decide)), Nat.mod_add_mod, total_cons, Nat.add_assoc]

theorem delaySum_checked {variants : List Frame} {sum : Nat} :
    delaySum .checked variants = some sum ↔
      total delay variants < u32 ∧ sum = total delay variants := by
  have h := @foldlM_checked variants 0 sum (by decide)
  rwa [Nat.zero_add] at h

theorem delaySum_wrapping (variants : List Frame) :
    delaySum .wrapping variants = some (total delay variants % u32) := by
  have h := @foldlM_wrapping variants 0 (by decide)
  rwa [Nat.zero_add] at h

/-- A sum that fits is what either build computes. -/
theorem delaySum_of_lt {build : Build} {variants : List Frame} (h : total delay variants < u32) :
    delaySum build variants = some (total delay variants) := by
  cases build with
  | checked => exact delaySum_checked.mpr ⟨h, rfl⟩
  | wrapping => rw [delaySum_wrapping, Nat.mod_eq_of_lt h]

/-- The subtraction never goes below 0. -/
theorem walk_eq (build : Build) (variants : List Frame) (t : Nat) :
    walk build t variants = at? delay t variants := by
  induction variants generalizing t with
  | nil => rfl
  | cons f variants ih =>
    rw [walk, at?]
    split
    · rfl
    · rename_i hle
      rw [unsignedSub_of_le (Nat.not_lt.mp hle)]
      exact ih (t - delay f)

/-! ## What is shown -/

variable {c : CursorIcons} {nearest : Frame}

theorem nearest_iff : c.frames.argmin c.distance = some nearest ↔ Nearest c nearest :=
  List.argmin_eq_some_iff

theorem exists_nearest (c : CursorIcons) : ∃ nearest, Nearest c nearest := by
  cases h : c.frames.argmin c.distance with
  | none =>
    rw [List.argmin_eq_none, CursorIcons.frames, List.map_eq_nil_iff, List.zipIdx_eq_nil_iff] at h
    exact absurd h c.nonempty
  | some nearest => exact ⟨nearest, nearest_iff.mp h⟩

theorem Nearest.unique {near : Frame} (h : Nearest c nearest) (h' : Nearest c near) :
    near = nearest := by
  have heq := nearest_iff.mpr h
  rw [nearest_iff.mpr h'] at heq
  exact Option.some.inj heq

theorem Nearest.mem_variants (h : Nearest c nearest) : nearest ∈ c.variants nearest := by
  unfold CursorIcons.variants
  rw [List.mem_filter]
  exact ⟨h.1, by simp⟩

theorem nodup_variants (c : CursorIcons) (nearest : Frame) : (c.variants nearest).Nodup := by
  refine List.Nodup.filter _ (List.Nodup.of_map Frame.place ?_)
  unfold CursorIcons.frames
  rw [List.map_map]
  exact (List.zipIdx_map_snd 0 c.icons).symm ▸ List.nodup_range'

/-- The code, from the images of the nearest size on. -/
theorem currentFrame_eq (build : Build) (time : Duration) (h : Nearest c nearest) :
    currentFrame build c time = (delaySum build (c.variants nearest)).bind fun total =>
      if total = 0 then (c.variants nearest).head?
      else at? delay (time.asMillis % u32 % total) (c.variants nearest) := by
  unfold currentFrame
  rw [nearest_iff.mpr h]
  simp only [Option.bind_eq_bind, Option.bind_some, walk_eq]

/-- A sum that fits shows the right image. -/
theorem shown_of_lt (build : Build) (time : Duration) (h : Nearest c nearest)
    (hlt : total delay (c.variants nearest) < u32) :
    ∃ f, currentFrame build c time = some f ∧ Shown c time f := by
  rw [currentFrame_eq build time h, delaySum_of_lt hlt, Option.bind_some]
  by_cases h0 : total delay (c.variants nearest) = 0
  · rw [if_pos h0]
    obtain ⟨f, hf⟩ := Option.ne_none_iff_exists'.mp
      (mt List.head?_eq_none_iff.mp (List.ne_nil_of_mem h.mem_variants))
    exact ⟨f, hf, nearest, h, fun _ => hf, fun hne => absurd h0 hne⟩
  · rw [if_neg h0]
    have hmod : time.asMillis % u32 % total delay (c.variants nearest)
        < total delay (c.variants nearest) := Nat.mod_lt _ (Nat.pos_of_ne_zero h0)
    obtain ⟨f, hf⟩ := Option.isSome_iff_exists.mp (at?_isSome.mpr hmod)
    have hon := at?_eq_some.mp hf
    refine ⟨f, hf, nearest, h, fun h => absurd h h0, fun _ => ⟨?_, hon⟩⟩
    obtain ⟨_, _, _, hle, hlt⟩ := hon
    omega

/-- Every number of milliseconds that a `u32` holds is that of some time. -/
theorem exists_asMillis {m : Nat} (h : m < u32) : ∃ time : Duration, time.asMillis = m := by
  have hsecs : (UInt64.ofNat (m / 1000)).toNat = m / 1000 :=
    UInt64.toNat_ofNat_of_lt' (by unfold u32 at h; unfold UInt64.size; omega)
  have hnanos : (UInt32.ofNat (m % 1000 * 1000000)).toNat = m % 1000 * 1000000 :=
    UInt32.toNat_ofNat_of_lt' (by unfold UInt32.size; omega)
  refine ⟨⟨UInt64.ofNat (m / 1000), UInt32.ofNat (m % 1000 * 1000000), ?_⟩, ?_⟩
  · rw [hnanos]
    omega
  · unfold Duration.asMillis
    dsimp only
    rw [hsecs, hnanos]
    omega

/-- What is on at the last time of all is not what is on at 0, as no delay is that long. -/
theorem at?_last_ne {f : Frame} (h0 : at? delay 0 (c.variants nearest) = some f) :
    at? delay (u32 - 1) (c.variants nearest) ≠ some f := by
  intro hlast
  have hlt := (at?_between (nodup_variants c nearest) h0 hlast (Nat.zero_le 0) (Nat.zero_le _)).2
  have hdelay := f.image.delay.toNat_lt
  unfold delay u32 at hlt
  omega

/-- A sum that wraps shows a wrong image at some time: the remainder stands for a shorter timeline,
whose start would be on again at the last multiple of it, and then from there to the last time. -/
theorem not_shown_of_le (h : Nearest c nearest) (hle : u32 ≤ total delay (c.variants nearest))
    (hall : ∀ time, ∃ f, currentFrame .wrapping c time = some f ∧ Shown c time f) : False := by
  have hpos : 0 < u32 := by decide
  -- what is on at each time, and what the code shows
  have hon : ∀ m, m < u32 → ∃ f, at? delay m (c.variants nearest) = some f ∧
      (if total delay (c.variants nearest) % u32 = 0 then (c.variants nearest).head?
        else at? delay (m % (total delay (c.variants nearest) % u32)) (c.variants nearest))
          = some f := by
    intro m hm
    obtain ⟨time, rfl⟩ := exists_asMillis hm
    obtain ⟨f, hrun, near, hnear, -, hshown⟩ := hall time
    obtain rfl := h.unique hnear
    rw [currentFrame_eq _ _ h, delaySum_wrapping, Option.bind_some, Nat.mod_eq_of_lt hm] at hrun
    obtain ⟨-, hat⟩ := hshown (by omega)
    rw [Nat.mod_eq_of_lt hm, Nat.mod_eq_of_lt (by omega)] at hat
    exact ⟨f, at?_eq_some.mpr hat, hrun⟩
  obtain ⟨first, hfirst, hcode⟩ := hon 0 hpos
  obtain ⟨last, hlast, hcode'⟩ := hon (u32 - 1) (by omega)
  by_cases h0 : total delay (c.variants nearest) % u32 = 0
  · rw [if_pos h0] at hcode hcode'
    rw [← hcode', hcode] at hlast
    exact at?_last_ne hfirst hlast
  · generalize hsum : total delay (c.variants nearest) % u32 = sum at *
    have hsumlt : sum < u32 := hsum ▸ Nat.mod_lt _ hpos
    rw [if_neg h0] at hcode hcode'
    -- the last multiple of the sum
    have hmultiple : (u32 - 1) / sum * sum + (u32 - 1) % sum = u32 - 1 := Nat.div_add_mod' _ _
    have hge : sum ≤ (u32 - 1) / sum * sum := by
      have hone : 1 ≤ (u32 - 1) / sum := (Nat.one_le_div_iff (Nat.pos_of_ne_zero h0)).mpr (by omega)
      calc sum = 1 * sum := (Nat.one_mul sum).symm
        _ ≤ (u32 - 1) / sum * sum := Nat.mul_le_mul_right _ hone
    have hrest : (u32 - 1) % sum < sum := Nat.mod_lt _ (Nat.pos_of_ne_zero h0)
    obtain ⟨g, hg, hcode''⟩ := hon ((u32 - 1) / sum * sum) (by omega)
    rw [if_neg h0, Nat.mul_mod_left, hfirst] at hcode''
    obtain rfl := Option.some.inj hcode''
    have hbetween := (at?_between (nodup_variants c nearest) hfirst hg (Nat.zero_le _)
      (Nat.le_trans hrest.le hge)).1
    rw [hcode'] at hbetween
    rw [Option.some.inj hbetween] at hlast
    exact at?_last_ne hfirst hlast

/-- A sum that wraps is not above the real one, so the loop never runs out of images. -/
theorem currentFrame_wrapping_ne_none (c : CursorIcons) (time : Duration) :
    currentFrame .wrapping c time ≠ none := by
  obtain ⟨nearest, h⟩ := exists_nearest c
  rw [currentFrame_eq _ _ h, delaySum_wrapping, Option.bind_some]
  split
  · exact mt List.head?_eq_none_iff.mp (List.ne_nil_of_mem h.mem_variants)
  · rename_i h0
    rw [← Option.isSome_iff_ne_none, at?_isSome]
    exact Nat.lt_of_lt_of_le (Nat.mod_lt _ (Nat.pos_of_ne_zero h0)) (Nat.mod_le _ _)

/-- The right image is shown, and the sum on the way is what it is to be. -/
def Right (build : Build) (c : CursorIcons) (time : Duration) : Prop :=
  ∃ nearest, Nearest c nearest ∧
    delaySum build (c.variants nearest) = some (total delay (c.variants nearest)) ∧
    ∃ f, currentFrame build c time = some f ∧ Shown c time f

/-- **The right image is shown exactly if the sum of the delays fits its type**, be it at one time
with nothing that overflows, or at all times. Whatever the delays are, a build that wraps shows some
image. -/
theorem currentFrame_iff (build : Build) (c : CursorIcons) :
    (∀ time, Right build c time ↔ Short c) ∧
    ((∀ time, ∃ f, currentFrame build c time = some f ∧ Shown c time f) ↔ Short c) ∧
    ∀ time, currentFrame .wrapping c time ≠ none := by
  obtain ⟨nearest, h⟩ := exists_nearest c
  have hshort : Short c ↔ total delay (c.variants nearest) < u32 := by
    constructor
    · rintro ⟨near, hnear, hlt⟩
      rwa [← hnear.unique h] at hlt
    · exact fun hlt => ⟨nearest, h, hlt⟩
  rw [hshort]
  refine ⟨fun time => ⟨?_, fun hlt => ?_⟩, ⟨fun hall => ?_, fun hlt time => ?_⟩,
    currentFrame_wrapping_ne_none c⟩
  · rintro ⟨near, hnear, hsum, -⟩
    obtain rfl := h.unique hnear
    cases build with
    | checked => exact (delaySum_checked.mp hsum).1
    | wrapping =>
      rw [delaySum_wrapping, Option.some.injEq] at hsum
      rw [← hsum]
      exact Nat.mod_lt _ (by decide)
  · exact ⟨nearest, h, delaySum_of_lt hlt, shown_of_lt build time h hlt⟩
  · by_contra hle
    cases build with
    | checked =>
      obtain ⟨f, hrun, -⟩ := hall ⟨0, 0, by decide⟩
      rw [currentFrame_eq _ _ h, Option.bind_eq_some_iff] at hrun
      obtain ⟨sum, hsum, -⟩ := hrun
      exact hle (delaySum_checked.mp hsum).1
    | wrapping => exact not_shown_of_le h (Nat.not_lt.mp hle) hall
  · exact shown_of_lt build time h hlt

/-- Two frames of `2 ^ 31` milliseconds. -/
def slow : CursorIcons where
  icons := [⟨24, 1, 1, 0, 0, 0x80000000, []⟩, ⟨24, 1, 1, 0, 0, 0x80000000, []⟩]
  nominalSize := 24
  nonempty := by decide

/-- The second of them is not shown. -/
theorem slow_frame_not_shown : ∃ time : Duration, ∀ build, ¬ ∃ f,
    currentFrame build slow time = some f ∧ Shown slow time f := by
  refine ⟨⟨2147484, 0, by decide⟩, ?_⟩
  rintro build ⟨f, hrun, near, hnear, -, hshown⟩
  have hfirst : Nearest slow ⟨⟨24, 1, 1, 0, 0, 0x80000000, []⟩, 0⟩ :=
    nearest_iff.mp (by decide)
  obtain rfl := hfirst.unique hnear
  have hat := at?_eq_some.mpr (hshown (by decide)).2
  cases build with
  | checked =>
    have hpanic : currentFrame .checked slow ⟨2147484, 0, by decide⟩ = none := by decide
    rw [hpanic] at hrun
    cases hrun
  | wrapping =>
    have hrun' : currentFrame .wrapping slow ⟨2147484, 0, by decide⟩
        = some ⟨⟨24, 1, 1, 0, 0, 0x80000000, []⟩, 0⟩ := by decide
    rw [hrun'] at hrun
    obtain rfl := Option.some.inj hrun
    revert hat
    decide

end Halmasuit.Drm.Cursor
