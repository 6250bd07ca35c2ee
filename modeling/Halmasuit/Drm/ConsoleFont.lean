import Halmasuit.Lib.Machine
import Mathlib.Data.List.Infix

/-!
# The text of the console

Model of `console_font.rs`: the diagnostic overlay writes its text into a buffer of pixels, of four
bytes each, in a font of 8 by 8 pixels.

`At` says where a character of the text stands, `Covered` which pixels it covers there, and `Drawn`
what the buffer is to be.

- `blitGlyph_eq`, `blitStr_eq`: the loops are one pass over the pixels that are in the area;
- `getElem?_foldl_write`: what such a pass leaves in the buffer;
- `blitStr_iff`: the text is drawn exactly if no number that is computed on the way does harm when
  it does not fit its type.
-/

namespace Halmasuit.Drm.ConsoleFont

open Lib.Machine

/-! ## The code -/

/-- `FONT8X8_BASIC`. The lowest bit of a row is its leftmost pixel. -/
def font8x8Basic : List (List UInt8) := [
  [0x00, 0x00, 0x00, 0x00, 0x00, 0x00, 0x00, 0x00],
  [0x00, 0x00, 0x00, 0x00, 0x00, 0x00, 0x00, 0x00],
  [0x00, 0x00, 0x00, 0x00, 0x00, 0x00, 0x00, 0x00],
  [0x00, 0x00, 0x00, 0x00, 0x00, 0x00, 0x00, 0x00],
  [0x00, 0x00, 0x00, 0x00, 0x00, 0x00, 0x00, 0x00],
  [0x00, 0x00, 0x00, 0x00, 0x00, 0x00, 0x00, 0x00],
  [0x00, 0x00, 0x00, 0x00, 0x00, 0x00, 0x00, 0x00],
  [0x00, 0x00, 0x00, 0x00, 0x00, 0x00, 0x00, 0x00],
  [0x00, 0x00, 0x00, 0x00, 0x00, 0x00, 0x00, 0x00],
  [0x00, 0x00, 0x00, 0x00, 0x00, 0x00, 0x00, 0x00],
  [0x00, 0x00, 0x00, 0x00, 0x00, 0x00, 0x00, 0x00],
  [0x00, 0x00, 0x00, 0x00, 0x00, 0x00, 0x00, 0x00],
  [0x00, 0x00, 0x00, 0x00, 0x00, 0x00, 0x00, 0x00],
  [0x00, 0x00, 0x00, 0x00, 0x00, 0x00, 0x00, 0x00],
  [0x00, 0x00, 0x00, 0x00, 0x00, 0x00, 0x00, 0x00],
  [0x00, 0x00, 0x00, 0x00, 0x00, 0x00, 0x00, 0x00],
  [0x00, 0x00, 0x00, 0x00, 0x00, 0x00, 0x00, 0x00],
  [0x00, 0x00, 0x00, 0x00, 0x00, 0x00, 0x00, 0x00],
  [0x00, 0x00, 0x00, 0x00, 0x00, 0x00, 0x00, 0x00],
  [0x00, 0x00, 0x00, 0x00, 0x00, 0x00, 0x00, 0x00],
  [0x00, 0x00, 0x00, 0x00, 0x00, 0x00, 0x00, 0x00],
  [0x00, 0x00, 0x00, 0x00, 0x00, 0x00, 0x00, 0x00],
  [0x00, 0x00, 0x00, 0x00, 0x00, 0x00, 0x00, 0x00],
  [0x00, 0x00, 0x00, 0x00, 0x00, 0x00, 0x00, 0x00],
  [0x00, 0x00, 0x00, 0x00, 0x00, 0x00, 0x00, 0x00],
  [0x00, 0x00, 0x00, 0x00, 0x00, 0x00, 0x00, 0x00],
  [0x00, 0x00, 0x00, 0x00, 0x00, 0x00, 0x00, 0x00],
  [0x00, 0x00, 0x00, 0x00, 0x00, 0x00, 0x00, 0x00],
  [0x00, 0x00, 0x00, 0x00, 0x00, 0x00, 0x00, 0x00],
  [0x00, 0x00, 0x00, 0x00, 0x00, 0x00, 0x00, 0x00],
  [0x00, 0x00, 0x00, 0x00, 0x00, 0x00, 0x00, 0x00],
  [0x00, 0x00, 0x00, 0x00, 0x00, 0x00, 0x00, 0x00],
  [0x00, 0x00, 0x00, 0x00, 0x00, 0x00, 0x00, 0x00],
  [0x18, 0x3C, 0x3C, 0x18, 0x18, 0x00, 0x18, 0x00],
  [0x36, 0x36, 0x00, 0x00, 0x00, 0x00, 0x00, 0x00],
  [0x36, 0x36, 0x7F, 0x36, 0x7F, 0x36, 0x36, 0x00],
  [0x0C, 0x3E, 0x03, 0x1E, 0x30, 0x1F, 0x0C, 0x00],
  [0x00, 0x63, 0x33, 0x18, 0x0C, 0x66, 0x63, 0x00],
  [0x1C, 0x36, 0x1C, 0x6E, 0x3B, 0x33, 0x6E, 0x00],
  [0x06, 0x06, 0x03, 0x00, 0x00, 0x00, 0x00, 0x00],
  [0x18, 0x0C, 0x06, 0x06, 0x06, 0x0C, 0x18, 0x00],
  [0x06, 0x0C, 0x18, 0x18, 0x18, 0x0C, 0x06, 0x00],
  [0x00, 0x66, 0x3C, 0xFF, 0x3C, 0x66, 0x00, 0x00],
  [0x00, 0x0C, 0x0C, 0x3F, 0x0C, 0x0C, 0x00, 0x00],
  [0x00, 0x00, 0x00, 0x00, 0x00, 0x0C, 0x0C, 0x06],
  [0x00, 0x00, 0x00, 0x3F, 0x00, 0x00, 0x00, 0x00],
  [0x00, 0x00, 0x00, 0x00, 0x00, 0x0C, 0x0C, 0x00],
  [0x60, 0x30, 0x18, 0x0C, 0x06, 0x03, 0x01, 0x00],
  [0x3E, 0x63, 0x73, 0x7B, 0x6F, 0x67, 0x3E, 0x00],
  [0x0C, 0x0E, 0x0C, 0x0C, 0x0C, 0x0C, 0x3F, 0x00],
  [0x1E, 0x33, 0x30, 0x1C, 0x06, 0x33, 0x3F, 0x00],
  [0x1E, 0x33, 0x30, 0x1C, 0x30, 0x33, 0x1E, 0x00],
  [0x38, 0x3C, 0x36, 0x33, 0x7F, 0x30, 0x78, 0x00],
  [0x3F, 0x03, 0x1F, 0x30, 0x30, 0x33, 0x1E, 0x00],
  [0x1C, 0x06, 0x03, 0x1F, 0x33, 0x33, 0x1E, 0x00],
  [0x3F, 0x33, 0x30, 0x18, 0x0C, 0x0C, 0x0C, 0x00],
  [0x1E, 0x33, 0x33, 0x1E, 0x33, 0x33, 0x1E, 0x00],
  [0x1E, 0x33, 0x33, 0x3E, 0x30, 0x18, 0x0E, 0x00],
  [0x00, 0x0C, 0x0C, 0x00, 0x00, 0x0C, 0x0C, 0x00],
  [0x00, 0x0C, 0x0C, 0x00, 0x00, 0x0C, 0x0C, 0x06],
  [0x18, 0x0C, 0x06, 0x03, 0x06, 0x0C, 0x18, 0x00],
  [0x00, 0x00, 0x3F, 0x00, 0x00, 0x3F, 0x00, 0x00],
  [0x06, 0x0C, 0x18, 0x30, 0x18, 0x0C, 0x06, 0x00],
  [0x1E, 0x33, 0x30, 0x18, 0x0C, 0x00, 0x0C, 0x00],
  [0x3E, 0x63, 0x7B, 0x7B, 0x7B, 0x03, 0x1E, 0x00],
  [0x0C, 0x1E, 0x33, 0x33, 0x3F, 0x33, 0x33, 0x00],
  [0x3F, 0x66, 0x66, 0x3E, 0x66, 0x66, 0x3F, 0x00],
  [0x3C, 0x66, 0x03, 0x03, 0x03, 0x66, 0x3C, 0x00],
  [0x1F, 0x36, 0x66, 0x66, 0x66, 0x36, 0x1F, 0x00],
  [0x7F, 0x46, 0x16, 0x1E, 0x16, 0x46, 0x7F, 0x00],
  [0x7F, 0x46, 0x16, 0x1E, 0x16, 0x06, 0x0F, 0x00],
  [0x3C, 0x66, 0x03, 0x03, 0x73, 0x66, 0x7C, 0x00],
  [0x33, 0x33, 0x33, 0x3F, 0x33, 0x33, 0x33, 0x00],
  [0x1E, 0x0C, 0x0C, 0x0C, 0x0C, 0x0C, 0x1E, 0x00],
  [0x78, 0x30, 0x30, 0x30, 0x33, 0x33, 0x1E, 0x00],
  [0x67, 0x66, 0x36, 0x1E, 0x36, 0x66, 0x67, 0x00],
  [0x0F, 0x06, 0x06, 0x06, 0x46, 0x66, 0x7F, 0x00],
  [0x63, 0x77, 0x7F, 0x7F, 0x6B, 0x63, 0x63, 0x00],
  [0x63, 0x67, 0x6F, 0x7B, 0x73, 0x63, 0x63, 0x00],
  [0x1C, 0x36, 0x63, 0x63, 0x63, 0x36, 0x1C, 0x00],
  [0x3F, 0x66, 0x66, 0x3E, 0x06, 0x06, 0x0F, 0x00],
  [0x1E, 0x33, 0x33, 0x33, 0x3B, 0x1E, 0x38, 0x00],
  [0x3F, 0x66, 0x66, 0x3E, 0x36, 0x66, 0x67, 0x00],
  [0x1E, 0x33, 0x07, 0x0E, 0x38, 0x33, 0x1E, 0x00],
  [0x3F, 0x2D, 0x0C, 0x0C, 0x0C, 0x0C, 0x1E, 0x00],
  [0x33, 0x33, 0x33, 0x33, 0x33, 0x33, 0x3F, 0x00],
  [0x33, 0x33, 0x33, 0x33, 0x33, 0x1E, 0x0C, 0x00],
  [0x63, 0x63, 0x63, 0x6B, 0x7F, 0x77, 0x63, 0x00],
  [0x63, 0x63, 0x36, 0x1C, 0x1C, 0x36, 0x63, 0x00],
  [0x33, 0x33, 0x33, 0x1E, 0x0C, 0x0C, 0x1E, 0x00],
  [0x7F, 0x63, 0x31, 0x18, 0x4C, 0x66, 0x7F, 0x00],
  [0x1E, 0x06, 0x06, 0x06, 0x06, 0x06, 0x1E, 0x00],
  [0x03, 0x06, 0x0C, 0x18, 0x30, 0x60, 0x40, 0x00],
  [0x1E, 0x18, 0x18, 0x18, 0x18, 0x18, 0x1E, 0x00],
  [0x08, 0x1C, 0x36, 0x63, 0x00, 0x00, 0x00, 0x00],
  [0x00, 0x00, 0x00, 0x00, 0x00, 0x00, 0x00, 0xFF],
  [0x0C, 0x0C, 0x18, 0x00, 0x00, 0x00, 0x00, 0x00],
  [0x00, 0x00, 0x1E, 0x30, 0x3E, 0x33, 0x6E, 0x00],
  [0x07, 0x06, 0x06, 0x3E, 0x66, 0x66, 0x3B, 0x00],
  [0x00, 0x00, 0x1E, 0x33, 0x03, 0x33, 0x1E, 0x00],
  [0x38, 0x30, 0x30, 0x3e, 0x33, 0x33, 0x6E, 0x00],
  [0x00, 0x00, 0x1E, 0x33, 0x3f, 0x03, 0x1E, 0x00],
  [0x1C, 0x36, 0x06, 0x0f, 0x06, 0x06, 0x0F, 0x00],
  [0x00, 0x00, 0x6E, 0x33, 0x33, 0x3E, 0x30, 0x1F],
  [0x07, 0x06, 0x36, 0x6E, 0x66, 0x66, 0x67, 0x00],
  [0x0C, 0x00, 0x0E, 0x0C, 0x0C, 0x0C, 0x1E, 0x00],
  [0x30, 0x00, 0x30, 0x30, 0x30, 0x33, 0x33, 0x1E],
  [0x07, 0x06, 0x66, 0x36, 0x1E, 0x36, 0x67, 0x00],
  [0x0E, 0x0C, 0x0C, 0x0C, 0x0C, 0x0C, 0x1E, 0x00],
  [0x00, 0x00, 0x33, 0x7F, 0x7F, 0x6B, 0x63, 0x00],
  [0x00, 0x00, 0x1F, 0x33, 0x33, 0x33, 0x33, 0x00],
  [0x00, 0x00, 0x1E, 0x33, 0x33, 0x33, 0x1E, 0x00],
  [0x00, 0x00, 0x3B, 0x66, 0x66, 0x3E, 0x06, 0x0F],
  [0x00, 0x00, 0x6E, 0x33, 0x33, 0x3E, 0x30, 0x78],
  [0x00, 0x00, 0x3B, 0x6E, 0x66, 0x06, 0x0F, 0x00],
  [0x00, 0x00, 0x3E, 0x03, 0x1E, 0x30, 0x1F, 0x00],
  [0x08, 0x0C, 0x3E, 0x0C, 0x0C, 0x2C, 0x18, 0x00],
  [0x00, 0x00, 0x33, 0x33, 0x33, 0x33, 0x6E, 0x00],
  [0x00, 0x00, 0x33, 0x33, 0x33, 0x1E, 0x0C, 0x00],
  [0x00, 0x00, 0x63, 0x6B, 0x7F, 0x7F, 0x36, 0x00],
  [0x00, 0x00, 0x63, 0x36, 0x1C, 0x36, 0x63, 0x00],
  [0x00, 0x00, 0x33, 0x33, 0x33, 0x3E, 0x30, 0x1F],
  [0x00, 0x00, 0x3F, 0x19, 0x0C, 0x26, 0x3F, 0x00],
  [0x38, 0x0C, 0x0C, 0x07, 0x0C, 0x0C, 0x38, 0x00],
  [0x18, 0x18, 0x18, 0x00, 0x18, 0x18, 0x18, 0x00],
  [0x07, 0x0C, 0x0C, 0x38, 0x0C, 0x0C, 0x07, 0x00],
  [0x6E, 0x3B, 0x00, 0x00, 0x00, 0x00, 0x00, 0x00],
  [0x00, 0x00, 0x00, 0x00, 0x00, 0x00, 0x00, 0x00]]

/-- `GLYPH_W`. -/
def glyphW : Int := 8

/-- `GLYPH_H`. -/
def glyphH : Int := 8

/-- The rows of a character. -/
def glyph (ch : Char) : List UInt8 :=
  let code := ch.toNat
  if code < 128 then font8x8Basic.getD code [] else font8x8Basic.getD '?'.toNat []

/-- The negative values of an `i32`. -/
def i32 : Nat := 2147483648

/-- The values of a `usize`. -/
def usize : Nat := 18446744073709551616

/-- `usize::try_from`. -/
def tryFrom (z : Int) : Option Nat := if 0 ≤ z then some z.toNat else none

/-- `copy_from_slice` into the buffer, from `i` on. -/
def copyFromSlice (buf : List UInt8) (i : Nat) (s : List UInt8) : List UInt8 :=
  buf.take i ++ s ++ buf.drop (i + s.length)

/-- What is the same for all of a text. -/
structure Target where
  build : Build
  stridePx : UInt64
  heightPx : UInt64
  rgba : Vector UInt8 4

/-- The pixel of a set bit, in the buffer. -/
def paint (t : Target) (buf : List UInt8) (p : Nat × Nat) : Option (List UInt8) := do
  let line ← unsigned t.build usize (p.2 * t.stridePx.toNat)
  let pixel ← unsigned t.build usize (line + p.1)
  let idx ← unsigned t.build usize (pixel * 4)
  let last ← unsigned t.build usize (idx + 4)
  return if idx ≤ last ∧ last ≤ buf.length then copyFromSlice buf idx t.rgba.toList else buf

/-- The body of the loop over the columns. -/
def blitCol (t : Target) (cx : Int) (py : Nat) (bits : UInt8) (buf : List UInt8) (col : Nat) :
    Option (List UInt8) :=
  if bits &&& (1 <<< UInt8.ofNat col) = 0 then some buf
  else do
    match tryFrom (← signed t.build i32 (cx + col)) with
    | none => return buf
    | some px => if t.stridePx.toNat ≤ px then return buf else paint t buf (px, py)

/-- The body of the loop over the rows. -/
def blitRow (t : Target) (cx cy : Int) (buf : List UInt8) (r : UInt8 × Nat) :
    Option (List UInt8) := do
  match tryFrom (← signed t.build i32 (cy + r.2)) with
  | none => return buf
  | some py =>
    if t.heightPx.toNat ≤ py then return buf
    else (List.range 8).foldlM (blitCol t cx py r.1) buf

def blitGlyph (t : Target) (cx cy : Int) (ch : Char) (buf : List UInt8) : Option (List UInt8) :=
  (glyph ch).zipIdx.foldlM (blitRow t cx cy) buf

/-- The loop over the characters, from the cursor. -/
def blitChars (t : Target) (startX : Int) : List Char → Int → Int → List UInt8 →
    Option (List UInt8)
  | [], _, _, buf => some buf
  | ch :: text, cx, cy, buf =>
    if ch = '\n' then do
      blitChars t startX text startX (← signed t.build i32 (cy + glyphH)) buf
    else do
      let buf ← blitGlyph t cx cy ch buf
      blitChars t startX text (← signed t.build i32 (cx + glyphW)) cy buf

/-- `blit_str`. Nothing comes out of it where it panics. -/
def blitStr (t : Target) (buf : List UInt8) (x y : Int32) (text : List Char) :
    Option (List UInt8) :=
  blitChars t x.toInt text x.toInt y.toInt buf

/-! ## What is to be drawn -/

/-- The characters since the last newline. -/
def column (pre : List Char) : Nat := (pre.reverse.takeWhile (· ≠ '\n')).length

/-- The newlines so far. -/
def line (pre : List Char) : Nat := pre.count '\n'

/-- The character `c` of the text is at `p`. -/
def At (x y : Int) (text : List Char) (p : Int × Int) (c : Char) : Prop :=
  ∃ pre post, text = pre ++ c :: post ∧ p = (x + glyphW * column pre, y + glyphH * line pre)

/-- The pixel `(col, row)` of the glyph is set. -/
def IsSet (c : Char) (col row : Nat) : Prop :=
  col < 8 ∧ ∃ bits, (glyph c)[row]? = some bits ∧ bits.toNat.testBit col = true

/-- A character covers the pixel. -/
def Covered (x y : Int) (text : List Char) (px py : Nat) : Prop :=
  ∃ p c col row, At x y text p c ∧ c ≠ '\n' ∧ IsSet c col row ∧
    (px : Int) = p.1 + col ∧ (py : Int) = p.2 + row

/-- The pixel of the buffer is in the area and a character covers it. -/
def Painted (t : Target) (len : Nat) (x y : Int) (text : List Char) (pixel : Nat) : Prop :=
  4 * pixel + 4 ≤ len ∧ ∃ px py, Covered x y text px py ∧ px < t.stridePx.toNat ∧
    py < t.heightPx.toNat ∧ pixel = py * t.stridePx.toNat + px

/-- **The text is drawn**: the bytes of the pixels it covers have the colour, and the others are as
they were. -/
def Drawn (t : Target) (buf : List UInt8) (x y : Int) (text : List Char) (out : List UInt8) :
    Prop :=
  out.length = buf.length ∧ ∀ k,
    (Painted t buf.length x y text (k / 4) → out[k]? = t.rgba.toList[k % 4]?) ∧
    (¬ Painted t buf.length x y text (k / 4) → out[k]? = buf[k]?)

/-- The glyphs are where an `i32` can count their columns and rows. -/
def Counted (x y : Int) (text : List Char) : Prop :=
  ∀ p c, At x y text p c → c ≠ '\n' → ∀ i : Nat, i < 8 → Fits i32 (p.1 + i) ∧ Fits i32 (p.2 + i)

/-! ## Where the characters are -/

/-- Where the next character is. -/
def advance (startX : Int) (p : Int × Int) (c : Char) : Int × Int :=
  if c = '\n' then (startX, p.2 + glyphH) else (p.1 + glyphW, p.2)

/-- The characters of a text that begins at `p`, each with its place. -/
def cells (startX : Int) : Int × Int → List Char → List ((Int × Int) × Char)
  | _, [] => []
  | p, c :: text => (p, c) :: cells startX (advance startX p c) text

theorem foldl_advance (x y : Int) (pre : List Char) :
    pre.foldl (advance x) (x, y) = (x + glyphW * column pre, y + glyphH * line pre) := by
  induction pre using List.reverseRecOn with
  | nil => simp [column, line]
  | append_singleton pre c ih =>
    rw [List.foldl_append, ih]
    by_cases hc : c = '\n'
    · simp [advance, column, line, glyphH, hc]
      omega
    · simp [advance, column, line, glyphW, hc]
      omega

theorem mem_cells {startX : Int} {p q : Int × Int} {c : Char} {text : List Char} :
    (q, c) ∈ cells startX p text ↔
      ∃ pre post, text = pre ++ c :: post ∧ q = pre.foldl (advance startX) p := by
  induction text generalizing p with
  | nil => simp [cells]
  | cons d text ih =>
    rw [cells, List.mem_cons, ih]
    constructor
    · rintro (h | ⟨pre, post, rfl, rfl⟩)
      · obtain ⟨rfl, rfl⟩ := Prod.mk.inj h
        exact ⟨[], text, rfl, rfl⟩
      · exact ⟨d :: pre, post, rfl, rfl⟩
    · rintro ⟨pre, post, htext, rfl⟩
      cases pre with
      | nil =>
        obtain ⟨rfl, rfl⟩ := List.cons.inj htext
        exact .inl rfl
      | cons d' pre =>
        obtain ⟨rfl, rfl⟩ := List.cons.inj htext
        exact .inr ⟨pre, post, rfl, rfl⟩

theorem at_iff {x y : Int} {text : List Char} {p : Int × Int} {c : Char} :
    At x y text p c ↔ (p, c) ∈ cells x (x, y) text := by
  rw [mem_cells]
  simp only [foldl_advance]
  rfl

/-! ## The pixels -/

/-- The pixels of a row of the glyph. -/
def rowPixels (cx cy : Int) (r : UInt8 × Nat) : List (Int × Int) :=
  (List.range 8).flatMap fun col =>
    if r.1 &&& (1 <<< UInt8.ofNat col) = 0 then [] else [(cx + col, cy + r.2)]

/-- The set pixels of a glyph, in the order of the loops. -/
def glyphPixels (p : Int × Int) (c : Char) : List (Int × Int) :=
  (glyph c).zipIdx.flatMap (rowPixels p.1 p.2)

/-- A pixel that is in the area. -/
def inArea (t : Target) (p : Int × Int) : Option (Nat × Nat) :=
  if 0 ≤ p.1 ∧ p.1 < t.stridePx.toNat ∧ 0 ≤ p.2 ∧ p.2 < t.heightPx.toNat then
    some (p.1.toNat, p.2.toNat)
  else none

/-- The pixels of the text in the area. -/
def pixels (t : Target) (cs : List ((Int × Int) × Char)) : List (Nat × Nat) :=
  cs.flatMap fun c => if c.2 = '\n' then [] else (glyphPixels c.1 c.2).filterMap (inArea t)

/-- A loop over lists, one after the other. -/
theorem foldlM_flatMap {α β σ : Type} {f : α → List β} {g : σ → α → Option σ} {h : σ → β → Option σ}
    {xs : List α} (hf : ∀ x ∈ xs, ∀ s, g s x = (f x).foldlM h s) (s : σ) :
    xs.foldlM g s = (xs.flatMap f).foldlM h s := by
  induction xs generalizing s with
  | nil => rfl
  | cons x xs ih =>
    obtain ⟨hx, hxs⟩ := List.forall_mem_cons.mp hf
    rw [List.foldlM_cons, hx, List.flatMap_cons, List.foldlM_append]
    exact bind_congr fun s => ih hxs s

theorem and_bit (bits : UInt8) {col : Nat} (h : col < 8) :
    bits &&& (1 <<< UInt8.ofNat col) = 0 ↔ bits.toNat.testBit col = false := by
  have hbit : ∀ col, col < 8 → (1 <<< UInt8.ofNat col : UInt8).toBitVec = BitVec.twoPow 8 col := by
    decide
  rw [← UInt8.toBitVec_inj, UInt8.toBitVec_and, hbit col h, BitVec.and_twoPow]
  have hne : BitVec.twoPow 8 col ≠ 0#8 := by
    intro h0
    have hget := congrArg (·.getLsbD col) h0
    simp [h] at hget
  change (if bits.toBitVec.getLsbD col = true then _ else _) = 0#8 ↔
    bits.toBitVec.getLsbD col = false
  split <;> simp_all

theorem glyph_length (c : Char) : (glyph c).length = 8 := by
  have htable : font8x8Basic.all (fun rows => rows.length == 8) = true := rfl
  have hlen : font8x8Basic.length = 128 := rfl
  have hrow : ∀ code, code < 128 → (font8x8Basic.getD code []).length = 8 := by
    intro code hcode
    rw [List.getD_eq_getElem?_getD, List.getElem?_eq_getElem (hlen ▸ hcode), Option.getD_some]
    exact eq_of_beq (List.all_eq_true.mp htable _ (List.getElem_mem _))
  unfold glyph
  dsimp only
  split
  · exact hrow _ ‹_›
  · exact hrow _ (by decide)

variable (t : Target) (cx cy : Int) (ch : Char) (buf : List UInt8)

@[simp]
theorem tryFrom_natCast (n : Nat) : tryFrom n = some n := by simp [tryFrom]

theorem tryFrom_of_neg {z : Int} (h : ¬ 0 ≤ z) : tryFrom z = none := if_neg h

theorem blitRow_eq {r : UInt8 × Nat} (hrow : Fits i32 (cy + r.2))
    (hcol : ∀ i : Nat, i < 8 → Fits i32 (cx + i)) :
    blitRow t cx cy buf r = ((rowPixels cx cy r).filterMap (inArea t)).foldlM (paint t) buf := by
  unfold blitRow rowPixels
  rw [signed_of_fits hrow, List.filterMap_flatMap, Option.bind_eq_bind, Option.bind_some]
  by_cases harea : 0 ≤ cy + r.2 ∧ cy + r.2 < t.heightPx.toNat
  · obtain ⟨py, hpy⟩ := Int.eq_ofNat_of_zero_le harea.1
    have hlt : py < t.heightPx.toNat := by omega
    rw [hpy, tryFrom_natCast]
    simp only [if_neg (Nat.not_le.mpr hlt)]
    refine foldlM_flatMap (fun col hmem buf => ?_) buf
    unfold blitCol
    split
    · rfl
    · rw [signed_of_fits (hcol col (List.mem_range.mp hmem)), Option.bind_eq_bind, Option.bind_some]
      by_cases h0 : 0 ≤ cx + col
      · obtain ⟨px, hpx⟩ := Int.eq_ofNat_of_zero_le h0
        by_cases hx : px < t.stridePx.toNat
        · simp [hpx, inArea, hlt, hx, Nat.not_le.mpr hx]
        · simp [hpx, inArea, hx, Nat.not_lt.mp hx]
      · simp [tryFrom_of_neg h0, h0, inArea]
  · have hnone : ∀ x : Int, inArea t (x, cy + r.2) = none := by
      intro x
      refine if_neg fun h => harea ⟨h.2.2.1, h.2.2.2⟩
    have hempty : ((List.range 8).flatMap fun col => List.filterMap (inArea t)
        (if r.1 &&& (1 <<< UInt8.ofNat col) = 0 then [] else [(cx + col, cy + r.2)])) = [] := by
      rw [List.flatMap_eq_nil_iff]
      intro col _
      split
      · rfl
      · rw [List.filterMap_cons, hnone, List.filterMap_nil]
    rw [hempty]
    by_cases h0 : 0 ≤ cy + r.2
    · obtain ⟨py, hpy⟩ := Int.eq_ofNat_of_zero_le h0
      have hle : t.heightPx.toNat ≤ py := by omega
      simp [hpy, hle]
    · simp [tryFrom_of_neg h0]

/-- **A glyph is one pass over its pixels in the area.** -/
theorem blitGlyph_eq (hfits : ∀ i : Nat, i < 8 → Fits i32 (cx + i) ∧ Fits i32 (cy + i)) :
    blitGlyph t cx cy ch buf
      = ((glyphPixels (cx, cy) ch).filterMap (inArea t)).foldlM (paint t) buf := by
  unfold blitGlyph glyphPixels
  rw [List.filterMap_flatMap]
  refine foldlM_flatMap (fun r hr buf => ?_) buf
  have hlt : r.2 < 8 := by
    have := List.snd_lt_of_mem_zipIdx hr
    rwa [glyph_length] at this
  exact blitRow_eq t cx cy buf (hfits _ hlt).2 fun i hi => (hfits i hi).1

theorem mem_glyphPixels {p z : Int × Int} {c : Char} :
    z ∈ glyphPixels p c ↔ ∃ col row : Nat, IsSet c col row ∧ z = (p.1 + col, p.2 + row) := by
  unfold glyphPixels rowPixels IsSet
  simp only [List.mem_flatMap, List.mem_range]
  constructor
  · rintro ⟨⟨bits, row⟩, hrow, col, hcol, hz⟩
    split at hz
    · cases hz
    · rename_i hset
      rw [and_bit bits hcol, Bool.not_eq_false] at hset
      rw [List.mem_zipIdx_iff_getElem?] at hrow
      exact ⟨col, row, ⟨hcol, bits, hrow, hset⟩, List.mem_singleton.mp hz⟩
  · rintro ⟨col, row, ⟨hcol, bits, hrow, hset⟩, rfl⟩
    refine ⟨(bits, row), List.mem_zipIdx_iff_getElem?.mpr hrow, col, hcol, ?_⟩
    rw [if_neg (by rw [and_bit bits hcol, hset]; decide)]
    exact List.mem_singleton_self _

theorem inArea_eq_some {z : Int × Int} {p : Nat × Nat} : inArea t z = some p ↔
    z = ((p.1 : Int), (p.2 : Int)) ∧ p.1 < t.stridePx.toNat ∧ p.2 < t.heightPx.toNat := by
  obtain ⟨x, y⟩ := z
  obtain ⟨px, py⟩ := p
  simp only [inArea, Option.ite_none_right_eq_some, Option.some.injEq, Prod.mk.injEq]
  omega

theorem mem_pixels {x y : Int} {text : List Char} {p : Nat × Nat} :
    p ∈ pixels t (cells x (x, y) text) ↔ Covered x y text p.1 p.2 ∧ p.1 < t.stridePx.toNat ∧
      p.2 < t.heightPx.toNat := by
  unfold pixels Covered
  simp only [List.mem_flatMap, at_iff]
  constructor
  · rintro ⟨⟨q, c⟩, hcell, hp⟩
    split at hp
    · cases hp
    · rename_i hc
      obtain ⟨z, hz, harea⟩ := List.mem_filterMap.mp hp
      obtain ⟨col, row, hset, rfl⟩ := mem_glyphPixels.mp hz
      obtain ⟨hz, hlt⟩ := (inArea_eq_some t).mp harea
      obtain ⟨hx, hy⟩ := Prod.mk.inj hz
      exact ⟨⟨q, c, col, row, hcell, hc, hset, hx.symm, hy.symm⟩, hlt⟩
  · rintro ⟨⟨q, c, col, row, hcell, hc, hset, hx, hy⟩, hlt⟩
    refine ⟨(q, c), hcell, ?_⟩
    rw [if_neg hc]
    refine List.mem_filterMap.mpr ⟨_, mem_glyphPixels.mpr ⟨col, row, hset, rfl⟩, ?_⟩
    rw [← hx, ← hy]
    exact (inArea_eq_some t).mpr ⟨rfl, hlt⟩

/-! ## What a pass leaves -/

/-- The place of a pixel among those of the buffer. -/
def pixelOf (t : Target) (p : Nat × Nat) : Nat := p.2 * t.stridePx.toNat + p.1

/-- The pixel takes the colour, if the buffer has it. -/
def write (rgba : Vector UInt8 4) (buf : List UInt8) (pixel : Nat) : List UInt8 :=
  if 4 * pixel + 4 ≤ buf.length then copyFromSlice buf (4 * pixel) rgba.toList else buf

theorem length_copyFromSlice {buf s : List UInt8} {i : Nat} (h : i + s.length ≤ buf.length) :
    (copyFromSlice buf i s).length = buf.length := by
  simp [copyFromSlice]
  omega

theorem getElem?_copyFromSlice {buf s : List UInt8} {i : Nat} (h : i + s.length ≤ buf.length)
    (k : Nat) : (copyFromSlice buf i s)[k]? = if i ≤ k ∧ k < i + s.length then s[k - i]?
      else buf[k]? := by
  have htake : (buf.take i).length = i := by
    rw [List.length_take]
    omega
  unfold copyFromSlice
  rw [List.append_assoc]
  by_cases hk : i ≤ k
  · rw [List.getElem?_append_right (by omega), htake]
    by_cases hin : k < i + s.length
    · rw [List.getElem?_append_left (by omega), if_pos ⟨hk, hin⟩]
    · have hplace : i + s.length + (k - i - s.length) = k := by omega
      rw [List.getElem?_append_right (by omega), List.getElem?_drop, hplace, if_neg (by omega)]
  · rw [List.getElem?_append_left (by omega), List.getElem?_take_of_lt (by omega),
      if_neg (by omega)]

theorem length_write (rgba : Vector UInt8 4) (buf : List UInt8) (pixel : Nat) :
    (write rgba buf pixel).length = buf.length := by
  unfold write
  split
  · exact length_copyFromSlice (by simpa using ‹_›)
  · rfl

theorem getElem?_write (rgba : Vector UInt8 4) (buf : List UInt8) (pixel k : Nat) :
    (write rgba buf pixel)[k]? = if k / 4 = pixel ∧ 4 * (k / 4) + 4 ≤ buf.length then
      rgba.toList[k % 4]? else buf[k]? := by
  unfold write
  split
  · rename_i h
    rw [getElem?_copyFromSlice (by simpa using h), Vector.length_toList]
    by_cases hk : k / 4 = pixel
    · have hmod : k - 4 * pixel = k % 4 := by omega
      rw [if_pos (by omega), if_pos (by omega), hmod]
    · rw [if_neg (by omega), if_neg (by omega)]
  · rw [if_neg (by omega)]

/-- What is left of the colour and the bytes before. -/
theorem getElem?_foldl_write (rgba : Vector UInt8 4) (buf : List UInt8) (ps : List Nat) (k : Nat) :
    (ps.foldl (write rgba) buf).length = buf.length ∧
    (ps.foldl (write rgba) buf)[k]? = if k / 4 ∈ ps ∧ 4 * (k / 4) + 4 ≤ buf.length then
      rgba.toList[k % 4]? else buf[k]? := by
  induction ps generalizing buf with
  | nil => simp
  | cons p ps ih =>
    obtain ⟨hlen, hget⟩ := ih (write rgba buf p)
    rw [length_write] at hlen hget
    refine ⟨hlen, ?_⟩
    rw [List.foldl_cons, hget, getElem?_write]
    simp only [List.mem_cons]
    by_cases hin : 4 * (k / 4) + 4 ≤ buf.length
    · by_cases hps : k / 4 ∈ ps <;> simp [hin, hps]
    · simp [hin]

/-- What a write of the code comes to. -/
theorem paint_checked (ht : t.build = .checked) {p : Nat × Nat} {out : List UInt8} :
    paint t buf p = some out ↔
      pixelOf t p * 4 + 4 < usize ∧ out = write t.rgba buf (pixelOf t p) := by
  unfold paint pixelOf write
  rw [ht]
  simp only [Option.bind_eq_bind, Option.bind_eq_some_iff, unsigned_checked]
  constructor
  · rintro ⟨_, ⟨-, rfl⟩, _, ⟨-, rfl⟩, _, ⟨-, rfl⟩, _, ⟨hlt, rfl⟩, hout⟩
    refine ⟨hlt, ?_⟩
    rw [← Option.some.inj hout, Nat.mul_comm 4]
    simp
  · rintro ⟨hlt, rfl⟩
    refine ⟨_, ⟨by omega, rfl⟩, _, ⟨by omega, rfl⟩, _, ⟨by omega, rfl⟩, _, ⟨hlt, rfl⟩, ?_⟩
    rw [Nat.mul_comm 4]
    simp

theorem paint_wrapping (ht : t.build = .wrapping) (hbuf : buf.length < usize) (p : Nat × Nat) :
    paint t buf p = some (write t.rgba buf (pixelOf t p % (usize / 4))) := by
  unfold paint pixelOf write
  rw [ht]
  simp only [unsigned_wrapping, Option.bind_eq_bind, Option.bind_some]
  have hidx : ((p.2 * t.stridePx.toNat % usize + p.1) % usize * 4) % usize
      = 4 * ((p.2 * t.stridePx.toNat + p.1) % (usize / 4)) := by
    unfold usize
    omega
  have hlast : (p.2 * t.stridePx.toNat + p.1) % (usize / 4) < usize / 4 :=
    Nat.mod_lt _ (by decide)
  rw [hidx]
  generalize (p.2 * t.stridePx.toNat + p.1) % (usize / 4) = pixel at hlast
  have hle : 4 * pixel + 4 ≤ usize := by
    unfold usize at hlast ⊢
    omega
  by_cases hin : 4 * pixel + 4 ≤ buf.length
  · rw [Nat.mod_eq_of_lt (Nat.lt_of_le_of_lt hin hbuf), if_pos hin, if_pos ⟨by omega, hin⟩]
    rfl
  · rw [if_neg hin, if_neg]
    · rfl
    · -- the last pixel of all addresses ends at 0
      rintro ⟨hidx, hlen⟩
      rcases Nat.lt_or_eq_of_le hle with hlt | heq
      · rw [Nat.mod_eq_of_lt hlt] at hlen
        exact hin hlen
      · rw [heq, Nat.mod_self] at hidx
        unfold usize at heq
        omega

theorem foldlM_paint_checked (ht : t.build = .checked) {ps : List (Nat × Nat)}
    {out : List UInt8} : ps.foldlM (paint t) buf = some out ↔
      (∀ p ∈ ps, pixelOf t p * 4 + 4 < usize) ∧
        out = (ps.map (pixelOf t)).foldl (write t.rgba) buf := by
  induction ps generalizing buf with
  | nil => simp [eq_comm]
  | cons p ps ih =>
    rw [List.foldlM_cons, Option.bind_eq_bind, Option.bind_eq_some_iff, List.forall_mem_cons]
    simp only [paint_checked t _ ht, ih]
    constructor
    · rintro ⟨_, ⟨hp, rfl⟩, hps, rfl⟩
      exact ⟨⟨hp, hps⟩, rfl⟩
    · rintro ⟨⟨hp, hps⟩, rfl⟩
      exact ⟨_, ⟨hp, rfl⟩, hps, rfl⟩

theorem foldlM_paint_wrapping (ht : t.build = .wrapping) (hbuf : buf.length < usize)
    (ps : List (Nat × Nat)) : ps.foldlM (paint t) buf
      = some ((ps.map fun p => pixelOf t p % (usize / 4)).foldl (write t.rgba) buf) := by
  induction ps generalizing buf with
  | nil => rfl
  | cons p ps ih =>
    rw [List.foldlM_cons, paint_wrapping t buf ht hbuf, Option.bind_eq_bind, Option.bind_some,
      ih _ (by rwa [length_write])]
    rfl

/-! ## The run -/

/-- The cursor is at `p`, or where that wraps to. -/
theorem blitChars_wrapping (ht : t.build = .wrapping) {startX : Int} (hstart : Fits i32 startX)
    {text : List Char} {p : Int × Int}
    (hcounted : ∀ q ∈ cells startX p text, q.2 ≠ '\n' → ∀ i : Nat, i < 8 →
      Fits i32 (q.1.1 + i) ∧ Fits i32 (q.1.2 + i)) :
    blitChars t startX text (p.1.bmod (2 * i32)) (p.2.bmod (2 * i32)) buf
      = (pixels t (cells startX p text)).foldlM (paint t) buf := by
  induction text generalizing p buf with
  | nil => rfl
  | cons c text ih =>
    obtain ⟨hc, htext⟩ := List.forall_mem_cons.mp hcounted
    have hmove : pixels t (cells startX p (c :: text))
        = (if c = '\n' then [] else (glyphPixels p c).filterMap (inArea t)) ++
          pixels t (cells startX (advance startX p c) text) := rfl
    rw [hmove, List.foldlM_append, blitChars]
    have hrest := fun buf => ih buf htext
    by_cases hnl : c = '\n'
    · rw [if_pos hnl, if_pos hnl, ht, signed_wrapping, Option.bind_eq_bind, Option.bind_some,
        Int.bmod_add_bmod, List.foldlM_nil]
      simp only [advance, if_pos hnl, bmod_of_fits hstart] at hrest
      simp [advance, hnl, hrest]
    · have hfits := hc hnl
      have h1 : Fits i32 p.1 := by simpa using (hfits 0 (by decide)).1
      have h2 : Fits i32 p.2 := by simpa using (hfits 0 (by decide)).2
      rw [if_neg hnl, if_neg hnl, ht, signed_wrapping, Int.bmod_add_bmod, bmod_of_fits h1,
        bmod_of_fits h2, blitGlyph_eq t _ _ _ _ hfits]
      simp only [advance, if_neg hnl, bmod_of_fits h2] at hrest
      simp [advance, hnl, hrest]

theorem blitChars_checked (ht : t.build = .checked) {startX : Int} {text : List Char}
    {p : Int × Int} {out : List UInt8}
    (hcounted : ∀ q ∈ cells startX p text, q.2 ≠ '\n' → ∀ i : Nat, i < 8 →
      Fits i32 (q.1.1 + i) ∧ Fits i32 (q.1.2 + i)) :
    blitChars t startX text p.1 p.2 buf = some out ↔
      (∀ q ∈ cells startX p text, (q.2 = '\n' → Fits i32 (q.1.2 + glyphH)) ∧
        (q.2 ≠ '\n' → Fits i32 (q.1.1 + glyphW))) ∧
      (pixels t (cells startX p text)).foldlM (paint t) buf = some out := by
  induction text generalizing p buf with
  | nil => simp [blitChars, cells, pixels]
  | cons c text ih =>
    obtain ⟨hc, htext⟩ := List.forall_mem_cons.mp hcounted
    have hmove : pixels t (cells startX p (c :: text))
        = (if c = '\n' then [] else (glyphPixels p c).filterMap (inArea t)) ++
          pixels t (cells startX (advance startX p c) text) := rfl
    rw [hmove, List.foldlM_append, blitChars, cells, List.forall_mem_cons]
    have hrest := fun buf => ih buf htext
    by_cases hnl : c = '\n'
    · rw [if_pos hnl, if_pos hnl, ht, Option.bind_eq_bind, Option.bind_eq_some_iff, List.foldlM_nil]
      simp only [advance, if_pos hnl] at hrest ⊢
      simp only [signed_checked, hnl]
      constructor
      · rintro ⟨_, ⟨hfits, rfl⟩, hrun⟩
        obtain ⟨hmoves, hrun⟩ := (hrest buf).mp hrun
        exact ⟨⟨⟨fun _ => hfits, fun h => absurd rfl h⟩, hmoves⟩, hrun⟩
      · rintro ⟨⟨hmove, hmoves⟩, hrun⟩
        exact ⟨_, ⟨hmove.1 trivial, rfl⟩, (hrest buf).mpr ⟨hmoves, hrun⟩⟩
    · rw [if_neg hnl, if_neg hnl, ht, blitGlyph_eq t _ _ _ _ (hc hnl)]
      simp only [advance, if_neg hnl] at hrest ⊢
      simp only [Option.bind_eq_bind, Option.bind_eq_some_iff, signed_checked]
      constructor
      · rintro ⟨buf', hglyph, _, ⟨hfits, rfl⟩, hrun⟩
        obtain ⟨hmoves, hrun⟩ := (hrest buf').mp hrun
        exact ⟨⟨⟨fun h => absurd h hnl, fun _ => hfits⟩, hmoves⟩, buf', hglyph, hrun⟩
      · rintro ⟨⟨hmove, hmoves⟩, buf', hglyph, hrun⟩
        exact ⟨buf', hglyph, _, ⟨hmove.2 hnl, rfl⟩, (hrest buf').mpr ⟨hmoves, hrun⟩⟩


/-! ## When the text is drawn -/

/-- Nothing that a build with checks computes is too large for its type. -/
def Exact (t : Target) (x y : Int) (text : List Char) : Prop :=
  (∀ p c, At x y text p c →
    (c = '\n' → Fits i32 (p.2 + glyphH)) ∧ (c ≠ '\n' → Fits i32 (p.1 + glyphW))) ∧
  ∀ px py, Covered x y text px py → px < t.stridePx.toNat → py < t.heightPx.toNat →
    (py * t.stridePx.toNat + px) * 4 + 4 < usize

/-- A pixel whose offset wraps is not in the buffer there, or is one that is painted, or has the
colour already. -/
def Harmless (t : Target) (buf : List UInt8) (x y : Int) (text : List Char) : Prop :=
  ∀ px py, Covered x y text px py → px < t.stridePx.toNat → py < t.heightPx.toNat →
    usize ≤ (py * t.stridePx.toNat + px) * 4 →
    ∀ k, k / 4 = (py * t.stridePx.toNat + px) % (usize / 4) → 4 * (k / 4) + 4 ≤ buf.length →
      Painted t buf.length x y text (k / 4) ∨ buf[k]? = t.rgba.toList[k % 4]?

/-- What the text needs of its place, in either build. -/
def Placed (t : Target) (buf : List UInt8) (x y : Int) (text : List Char) : Prop :=
  match t.build with
  | .checked => Exact t x y text
  | .wrapping => Harmless t buf x y text

theorem painted_iff {x y : Int} {text : List Char} {len pixel : Nat} :
    Painted t len x y text pixel ↔ 4 * pixel + 4 ≤ len ∧
      pixel ∈ (pixels t (cells x (x, y) text)).map (pixelOf t) := by
  unfold Painted
  rw [List.mem_map]
  refine and_congr_right fun _ => ?_
  constructor
  · rintro ⟨px, py, hcovered, hx, hy, rfl⟩
    exact ⟨(px, py), (mem_pixels t).mpr ⟨hcovered, hx, hy⟩, rfl⟩
  · rintro ⟨p, hp, rfl⟩
    obtain ⟨hcovered, hx, hy⟩ := (mem_pixels t).mp hp
    exact ⟨p.1, p.2, hcovered, hx, hy, rfl⟩

/-- A pass of exact offsets draws the text. -/
theorem drawn_exact (x y : Int) (text : List Char) : Drawn t buf x y text
    (((pixels t (cells x (x, y) text)).map (pixelOf t)).foldl (write t.rgba) buf) := by
  refine ⟨(getElem?_foldl_write _ _ _ 0).1, fun k => ?_⟩
  rw [(getElem?_foldl_write _ _ _ k).2, painted_iff]
  exact ⟨fun h => if_pos h.symm, fun h => if_neg fun h' => h h'.symm⟩

/-- A pass of wrapped offsets draws it if they do no harm. -/
theorem drawn_wrapped (hbuf : buf.length < usize) (x y : Int) (text : List Char) :
    Drawn t buf x y text (((pixels t (cells x (x, y) text)).map
      fun p => pixelOf t p % (usize / 4)).foldl (write t.rgba) buf) ↔ Harmless t buf x y text := by
  unfold Drawn Harmless
  rw [(getElem?_foldl_write _ _ _ 0).1]
  simp only [(getElem?_foldl_write _ _ _ _).2, List.mem_map]
  constructor
  · rintro ⟨-, hdrawn⟩ px py hcovered hx hy - k hk hin
    rw [or_iff_not_imp_left]
    intro hnot
    have hwritten := (hdrawn k).2 hnot
    rw [if_pos ⟨⟨(px, py), (mem_pixels t).mpr ⟨hcovered, hx, hy⟩, hk.symm⟩, hin⟩] at hwritten
    exact hwritten.symm
  · rintro hharmless
    refine ⟨trivial, fun k => ⟨fun hpainted => ?_, fun hnot => ?_⟩⟩
    · obtain ⟨hin, hk⟩ := (painted_iff t).mp hpainted
      obtain ⟨p, hp, hk⟩ := List.mem_map.mp hk
      refine if_pos ⟨⟨p, hp, ?_⟩, hin⟩
      rw [Nat.mod_eq_of_lt (by unfold usize at *; omega), hk]
    · split
      · rename_i hwritten
        obtain ⟨⟨p, hp, hk⟩, hin⟩ := hwritten
        obtain ⟨hcovered, hx, hy⟩ := (mem_pixels t).mp hp
        have hwraps : usize ≤ pixelOf t p * 4 := by
          by_contra hlt
          rw [Nat.mod_eq_of_lt (by unfold usize at *; omega)] at hk
          exact hnot ((painted_iff t).mpr ⟨hin, List.mem_map.mpr ⟨p, hp, hk⟩⟩)
        have hcolour := hharmless p.1 p.2 hcovered hx hy hwraps k hk.symm hin
        exact (hcolour.resolve_left hnot).symm
      · rfl

/-- In an area that has an address for each byte nothing wraps. -/
theorem harmless_of_area {x y : Int} {text : List Char}
    (h : t.heightPx.toNat * t.stridePx.toNat * 4 ≤ usize) : Harmless t buf x y text := by
  intro px py _ hx hy hwraps
  have hrow : (py + 1) * t.stridePx.toNat ≤ t.heightPx.toNat * t.stridePx.toNat :=
    Nat.mul_le_mul_right _ hy
  rw [Nat.add_mul, Nat.one_mul] at hrow
  omega

/-- **The text is drawn exactly if no number on the way does harm when it does not fit.** -/
theorem blitStr_iff (hbuf : buf.length < usize) (x y : Int32) (text : List Char)
    (hcounted : Counted x.toInt y.toInt text) :
    (∃ out, blitStr t buf x y text = some out ∧ Drawn t buf x.toInt y.toInt text out) ↔
      Placed t buf x.toInt y.toInt text := by
  have hcells : ∀ q ∈ cells x.toInt (x.toInt, y.toInt) text, q.2 ≠ '\n' → ∀ i : Nat, i < 8 →
      Fits i32 (q.1.1 + i) ∧ Fits i32 (q.1.2 + i) :=
    fun q hq => hcounted q.1 q.2 (at_iff.mpr hq)
  have hx : Fits i32 x.toInt := ⟨x.le_toInt, x.toInt_lt⟩
  have hy : Fits i32 y.toInt := ⟨y.le_toInt, y.toInt_lt⟩
  unfold blitStr Placed
  cases ht : t.build with
  | checked =>
    simp only [blitChars_checked t buf ht hcells, foldlM_paint_checked t buf ht]
    constructor
    · rintro ⟨out, ⟨hmoves, hoffsets, -⟩, -⟩
      refine ⟨fun p c hat => hmoves (p, c) (at_iff.mp hat), fun px py hcovered hx hy => ?_⟩
      exact hoffsets (px, py) ((mem_pixels t).mpr ⟨hcovered, hx, hy⟩)
    · rintro ⟨hmoves, hoffsets⟩
      refine ⟨_, ⟨fun q hq => hmoves q.1 q.2 (at_iff.mpr hq), fun p hp => ?_, rfl⟩,
        drawn_exact t buf _ _ text⟩
      obtain ⟨hcovered, hx, hy⟩ := (mem_pixels t).mp hp
      exact hoffsets p.1 p.2 hcovered hx hy
  | wrapping =>
    have hrun := blitChars_wrapping t buf ht hx hcells
    rw [bmod_of_fits hx, bmod_of_fits hy, foldlM_paint_wrapping t buf ht hbuf] at hrun
    simp only [hrun, Option.some.injEq, exists_eq_left']
    exact drawn_wrapped t buf hbuf _ _ text

/-- A text in a buffer of its size. -/
theorem blitStr_small : ∃ out,
    blitStr ⟨.wrapping, 8, 8, #v[255, 255, 255, 255]⟩ (List.replicate 256 0) 0 0 ['!'] = some out ∧
    Drawn ⟨.wrapping, 8, 8, #v[255, 255, 255, 255]⟩ (List.replicate 256 0) 0 0 ['!'] out := by
  have hlen : (List.replicate 256 (0 : UInt8)).length < usize := by
    rw [List.length_replicate]
    decide
  refine (blitStr_iff _ _ hlen 0 0 ['!'] ?_).mpr (harmless_of_area _ _ (by decide))
  intro p c hat
  have hcells : ∀ q ∈ cells 0 (0, 0) ['!'], q.2 ≠ '\n' → ∀ i : Nat, i < 8 →
      Fits i32 (q.1.1 + i) ∧ Fits i32 (q.1.2 + i) := by decide
  exact hcells (p, c) (at_iff.mp hat)

/-- An area whose rows are `2 ^ 62` pixels wide. -/
def wide (build : Build) : Target := ⟨build, 0x4000000000000000, 8, #v[255, 255, 255, 255]⟩

/-- The second row wraps onto the first. -/
theorem wide_rows_wrap : Counted 0 0 ['!'] ∧ ∀ build, ¬ ∃ out,
    blitStr (wide build) (List.replicate 32 0) 0 0 ['!'] = some out ∧
      Drawn (wide build) (List.replicate 32 0) 0 0 ['!'] out := by
  constructor
  · intro p c hat
    have hcells : ∀ q ∈ cells 0 (0, 0) ['!'], q.2 ≠ '\n' → ∀ i : Nat, i < 8 →
        Fits i32 (q.1.1 + i) ∧ Fits i32 (q.1.2 + i) := by decide
    exact hcells (p, c) (at_iff.mp hat)
  · rintro build ⟨out, hrun, hdrawn⟩
    cases build with
    | checked =>
      have hpanic : blitStr (wide .checked) (List.replicate 32 0) 0 0 ['!'] = none := by decide
      rw [hpanic] at hrun
      cases hrun
    | wrapping =>
      have hwritten : (blitStr (wide .wrapping) (List.replicate 32 0) 0 0 ['!']).bind (·[8]?)
          = some 255 := by decide
      have hnot : ¬ Painted (wide .wrapping) 32 0 0 ['!'] (8 / 4) := by
        rw [painted_iff]
        decide
      rw [hrun, Option.bind_some, (hdrawn.2 8).2 hnot] at hwritten
      cases hwritten

end Halmasuit.Drm.ConsoleFont
