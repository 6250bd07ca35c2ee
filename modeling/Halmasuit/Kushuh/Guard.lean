import Halmasuit.Kushuh.Parse
import Halmasuit.Lib.KdlText
import Halmasuit.Lib.Utf8

/-!
# The guard in front of the parser

Model of `guard_input` and `parse` of `kushuh/src/config/parse.rs`. The `kdl` crate's parser is a
parameter: it recurses into the blocks of the text, and `guard_input` is to see to it that they are
not nested too deep. It counts the braces outside of `"…"`, which is all that it knows of strings and
comments.

- `guardInput_iff`: what the guard accepts, as a reader of characters (`scanner`);
- `sound_iff`: of all the continuations of a text, when none gets past the guard with blocks that are
  too deep;
- **`legible_sound`**: a text whose comments, raw strings and multi-line strings have nothing in them
  that the guard misreads does not.
-/

namespace Halmasuit.Kushuh

open Lib Lib.Kdl Lib.Nesting Lib.Utf8

/-! ## `guard_input` -/

/-- `MAX_CONFIG_BYTES`. -/
def maxConfigBytes : Nat := 256 * 1024

/-- `MAX_NESTING_DEPTH`. -/
def maxNestingDepth : Nat := 32

/-- The variables of the loop of `guard_input`. -/
structure Scan where
  depth : Nat
  inString : Bool
  escaped : Bool

def sizeError (len : Nat) : ParseError :=
  .spanless ("config is " ++ toString len ++ " bytes, over the " ++ toString maxConfigBytes ++
    "-byte limit")

def depthError (offset : Nat) : ParseError :=
  .atSpan ("config nesting exceeds the depth limit of " ++ toString maxNestingDepth) ⟨offset, 1⟩

/-- One byte: the quote is `0x22`, the backslash `0x5c`, and the braces are `0x7b` and `0x7d`. -/
def scanByte (s : Scan) (offset : Nat) (byte : UInt8) : Except ParseError Scan :=
  if s.inString = true then
    if s.escaped = true then .ok { s with escaped := false }
    else if byte = 0x5c then .ok { s with escaped := true }
    else if byte = 0x22 then .ok { s with inString := false }
    else .ok s
  else if byte = 0x22 then .ok { s with inString := true }
  else if byte = 0x7b then
    if maxNestingDepth < s.depth + 1 then .error (depthError offset)
    else .ok { s with depth := s.depth + 1 }
  else if byte = 0x7d then .ok { s with depth := s.depth - 1 }
  else .ok s

def scanFrom (s : Scan) (offset : Nat) : List UInt8 → Except ParseError Scan
  | [] => .ok s
  | byte :: bytes => do
    let s ← scanByte s offset byte
    scanFrom s (offset + 1) bytes

/-- `guard_input`. -/
def guardInput (src : List Char) : Except ParseError Unit :=
  if maxConfigBytes < (utf8 src).length then .error (sizeError (utf8 src).length)
  else (scanFrom ⟨0, false, false⟩ 0 (utf8 src)).map fun _ => ()

/-! ## `parse` -/

/-- A diagnostic of the `kdl` crate. -/
structure KdlDiagnostic where
  message : Option String
  span : Span

/-- The error of the `kdl` crate, with its text. -/
structure KdlError where
  diagnostics : List KdlDiagnostic
  display : String

/-- `kdl_syntax_error`. -/
def kdlSyntaxError (err : KdlError) : ParseError :=
  match err.diagnostics with
  | [] => .spanless ("invalid KDL: " ++ err.display)
  | d :: _ => .atSpan ("invalid KDL: " ++ d.message.getD "invalid KDL") d.span

/-- `parse`. -/
def parse (fromStr : List Char → Except KdlError KdlDocument) (src : List Char) :
    Except ParseError Config := do
  guardInput src
  let doc ← (fromStr src).mapError kdlSyntaxError
  parseDocument doc

/-- The `kdl` parser gets the texts that the guard accepts. -/
theorem parse_eq_ok {fromStr : List Char → Except KdlError KdlDocument} {src : List Char}
    {cfg : Config} :
    parse fromStr src = .ok cfg ↔ guardInput src = .ok () ∧
      ∃ doc, fromStr src = .ok doc ∧ parseDocument doc = .ok cfg := by
  unfold parse
  simp only [bind_eq_ok, mapError_eq_ok]
  constructor
  · rintro ⟨_, hguard, hdoc⟩
    exact ⟨hguard, hdoc⟩
  · rintro ⟨hguard, hdoc⟩
    exact ⟨(), hguard, hdoc⟩

/-! ## The guard as a reader -/

/-- In a string or not, and behind a backslash or not. -/
structure Quoting where
  inString : Bool
  escaped : Bool
  deriving DecidableEq

section
variable {α : Type} [DecidableEq α] {o c escape quote : α}

def nextQuoting (escape quote : α) (s : Quoting) (x : α) : Quoting :=
  if s.inString = true then
    if s.escaped = true then { s with escaped := false }
    else if x = escape then { s with escaped := true }
    else if x = quote then { s with inString := false }
    else s
  else if x = quote then { s with inString := true }
  else s

theorem nextQuoting_inString {s : Quoting} {x : α} (hx : x ≠ quote) :
    (nextQuoting escape quote s x).inString = s.inString := by
  unfold nextQuoting
  split_ifs <;> rfl

/-- The braces outside of strings. -/
def quoting (escape quote : α) (h : o ≠ quote) : Reader o c Quoting where
  start := ⟨false, false⟩
  next := nextQuoting escape quote
  sees s := !s.inString
  sees_opening s := by rw [nextQuoting_inString h]

@[simp] theorem quoting_next (h : o ≠ quote) (s : Quoting) (x : α) :
    (quoting escape quote h : Reader o c Quoting).next s x = nextQuoting escape quote s x := rfl

@[simp] theorem quoting_sees (h : o ≠ quote) (s : Quoting) :
    (quoting escape quote h : Reader o c Quoting).sees s = !s.inString := rfl

end

/-- The braces that the guard counts, of a text in bytes. -/
abbrev byteScanner : Reader (0x7b : UInt8) 0x7d Quoting := quoting 0x5c 0x22 (by decide)

/-- The same of a text in characters. -/
abbrev scanner : Reader '\x7b' '\x7d' Quoting := quoting '\x5c' '\x22' (by decide)

/-- The variables at a place. -/
def scanAt (p : Place Quoting) : Scan := ⟨p.depth, p.context.inString, p.context.escaped⟩

/-- One byte: the error is at an opening brace, and stands for a nesting that is too deep. -/
theorem scanByte_eq {p : Place Quoting} (h : p.depth ≤ maxNestingDepth) (offset : Nat)
    (byte : UInt8) :
    scanByte (scanAt p) offset byte =
      if maxNestingDepth < byteScanner.nest p.context p.depth byte then .error (depthError offset)
      else .ok (scanAt (byteScanner.step p byte)) := by
  obtain ⟨⟨inString, escaped⟩, depth, peak⟩ := p
  have hle : ¬ maxNestingDepth < depth := Nat.not_lt.mpr h
  have hsub : ¬ maxNestingDepth < depth - 1 := by omega
  cases inString with
  | true =>
    have hnest : byteScanner.nest ⟨true, escaped⟩ depth byte = depth :=
      byteScanner.nest_unseen rfl depth byte
    simp only [hnest, if_neg hle, Reader.step, quoting_next, scanAt]
    cases escaped with
    | true => rfl
    | false =>
      by_cases he : byte = 0x5c
      · simp [scanByte, nextQuoting, he]
      by_cases hq : byte = 0x22
      · simp [scanByte, nextQuoting, hq]
      · simp [scanByte, nextQuoting, he, hq]
  | false =>
    by_cases hq : byte = 0x22
    · simp [scanByte, scanAt, nextQuoting, Reader.nest, hq, hle]
    by_cases ho : byte = 0x7b
    · subst ho
      rfl
    by_cases hc : byte = 0x7d
    · simp [scanByte, scanAt, nextQuoting, Reader.nest, hc, hsub]
    · simp [scanByte, scanAt, nextQuoting, Reader.nest, hq, ho, hc, hle]

/-- The scan comes to the end of the bytes if they do not nest too deep. -/
theorem scanFrom_isOk {p : Place Quoting} (hdepth : p.depth ≤ p.peak)
    (hpeak : p.peak ≤ maxNestingDepth) (offset : Nat) (bytes : List UInt8) :
    (∃ s, scanFrom (scanAt p) offset bytes = .ok s) ↔
      (bytes.foldl byteScanner.step p).peak ≤ maxNestingDepth := by
  induction bytes generalizing p offset with
  | nil => exact iff_of_true ⟨_, rfl⟩ hpeak
  | cons byte bytes ih =>
    rw [scanFrom, scanByte_eq (Nat.le_trans hdepth hpeak), List.foldl_cons]
    by_cases hlt : maxNestingDepth < byteScanner.nest p.context p.depth byte
    · have hle := byteScanner.peak_le_foldl (byteScanner.step p byte) bytes
      rw [Reader.step_peak] at hle
      rw [if_pos hlt]
      refine iff_of_false ?_ (by omega)
      rintro ⟨s, hs⟩
      cases hs
    · rw [if_neg hlt]
      refine ih ?_ ?_ (offset + 1)
      · exact Nat.le_max_right _ _
      · exact Nat.max_le.mpr ⟨hpeak, Nat.le_of_not_lt hlt⟩

/-! ## Bytes and characters -/

/-- The scanners cannot tell the byte and the character apart. -/
def Alike (b : UInt8) (x : Char) : Prop :=
  (b = 0x7b ↔ x = '\x7b') ∧ (b = 0x7d ↔ x = '\x7d') ∧ (b = 0x5c ↔ x = '\x5c') ∧
    (b = 0x22 ↔ x = '\x22')

theorem Alike.step_eq {b : UInt8} {x : Char} (h : Alike b x) (p : Place Quoting) :
    byteScanner.step p b = scanner.step p x := by
  obtain ⟨ho, hc, he, hq⟩ := h
  simp only [Reader.step, Reader.nest, quoting_next, quoting_sees, nextQuoting, ho, hc, he, hq]
  congr

theorem alike_ascii {x : Char} (h : x.toNat < 0x80) : Alike (UInt8.ofNat x.toNat) x := by
  have hone : ∀ (b : UInt8) (y : Char), b.toNat = y.toNat →
      (UInt8.ofNat x.toNat = b ↔ x = y) := by
    intro b y hb
    rw [← UInt8.toNat_inj, UInt8.toNat_ofNat', Nat.mod_eq_of_lt (by omega), hb, Char.toNat_inj]
  exact ⟨hone _ _ rfl, hone _ _ rfl, hone _ _ rfl, hone _ _ rfl⟩

theorem alike_high {x : Char} (h : 0x80 ≤ x.toNat) {b : UInt8} (hb : 0x80 ≤ b) : Alike b x := by
  have hone : ∀ (a : UInt8) (y : Char), a < 0x80 → y.toNat < 0x80 → (b = a ↔ x = y) := by
    intro a y ha hy
    refine iff_of_false ?_ ?_
    · rintro rfl
      exact absurd hb (UInt8.not_le.mpr ha)
    · rintro rfl
      omega
  exact ⟨hone _ _ (by decide) (by decide), hone _ _ (by decide) (by decide),
    hone _ _ (by decide) (by decide), hone _ _ (by decide) (by decide)⟩

/-- A character above `U+007F` only ends an escape. -/
theorem step_high {x : Char} (h : 0x80 ≤ x.toNat) (p : Place Quoting) :
    scanner.step p x =
      ⟨{ p.context with escaped := !p.context.inString && p.context.escaped }, p.depth,
        max p.peak p.depth⟩ := by
  have hne : ∀ y : Char, y.toNat < 0x80 → x ≠ y := by
    rintro y hy rfl
    omega
  have hnest : scanner.nest p.context p.depth x = p.depth :=
    scanner.nest_other p.depth (hne _ (by decide)) (hne _ (by decide))
  have he : x ≠ '\x5c' := hne _ (by decide)
  have hq : x ≠ '\x22' := hne _ (by decide)
  obtain ⟨⟨inString, escaped⟩, depth, peak⟩ := p
  simp only [Reader.step, hnest, quoting_next]
  cases inString <;> cases escaped <;> simp [nextQuoting, he, hq]

/-- The bytes behind its first one change nothing more. -/
theorem foldl_high {x : Char} (h : 0x80 ≤ x.toNat) (p : Place Quoting) {bytes : List UInt8}
    (hbytes : ∀ b ∈ bytes, 0x80 ≤ b) :
    bytes.foldl byteScanner.step (scanner.step p x) = scanner.step p x := by
  have htwice : scanner.step (scanner.step p x) x = scanner.step p x := by
    rw [step_high h (scanner.step p x), step_high h p]
    simp
  induction bytes with
  | nil => rfl
  | cons b bytes ih =>
    rw [List.forall_mem_cons] at hbytes
    rw [List.foldl_cons, (alike_high h hbytes.1).step_eq, htwice, ih hbytes.2]

theorem foldl_encode (p : Place Quoting) (x : Char) :
    (String.utf8EncodeChar x).foldl byteScanner.step p = scanner.step p x := by
  by_cases hx : x.toNat < 0x80
  · rw [encode_ascii hx, List.foldl_cons, List.foldl_nil, (alike_ascii hx).step_eq]
  · have hx := Nat.le_of_not_lt hx
    obtain ⟨hlen, hhigh⟩ := encode_high hx
    cases hbytes : String.utf8EncodeChar x with
    | nil => simp [hbytes] at hlen
    | cons b bytes =>
      rw [hbytes, List.forall_mem_cons] at hhigh
      rw [List.foldl_cons, (alike_high hx hhigh.1).step_eq, foldl_high hx p hhigh.2]

theorem run_utf8 (t : List Char) : byteScanner.run (utf8 t) = scanner.run t := by
  induction t using List.reverseRecOn with
  | nil => rfl
  | append_singleton t x ih =>
    rw [utf8_append, Reader.run_append, ih, utf8_singleton, foldl_encode, Reader.run_concat]

/-- What the guard accepts. -/
theorem guardInput_iff {src : List Char} :
    guardInput src = .ok () ↔
      (utf8 src).length ≤ maxConfigBytes ∧ (scanner.run src).peak ≤ maxNestingDepth := by
  have hscan := scanFrom_isOk (p := ⟨byteScanner.start, 0, 0⟩) (Nat.le_refl 0) (Nat.zero_le _) 0
    (utf8 src)
  have hrun : (utf8 src).foldl byteScanner.step ⟨byteScanner.start, 0, 0⟩ = scanner.run src :=
    run_utf8 src
  rw [hrun] at hscan
  unfold guardInput
  by_cases hlen : maxConfigBytes < (utf8 src).length
  · rw [if_pos hlen]
    exact iff_of_false (by simp) fun h => absurd h.1 (Nat.not_le.mpr hlen)
  · rw [if_neg hlen, ← hscan]
    simp only [map_eq_ok, and_true, Nat.le_of_not_lt hlen, true_and]
    rfl

/-! ## What gets past the guard -/

/-- Where the guard accepts the text, its blocks are not nested too deep. -/
def Sound (src : List Char) : Prop :=
  guardInput src = .ok () → KdlText.blockDepth src ≤ maxNestingDepth

/-- Where the next opening brace is one of a block, the guard is outside of its strings and has
counted as many braces as there are blocks around; or it has rejected the text, or it will for its
size before there are too many blocks. -/
def Counted (t : List Char) : Prop :=
  KdlText.sees (KdlText.reader.run t).context = true →
    maxNestingDepth < (scanner.run t).peak ∨
    maxConfigBytes < (utf8 t).length + (maxNestingDepth + 1 - (KdlText.reader.run t).depth) ∨
    ((scanner.run t).context.inString = false ∧
      (KdlText.reader.run t).depth ≤ (scanner.run t).depth)

/-- Of a text, each part with any number of opening braces behind it is sound exactly
if the guard has counted the blocks at the end of each part. -/
theorem sound_iff (src : List Char) :
    (∀ t k, t <+: src → Sound (t ++ List.replicate k '\x7b')) ↔ ∀ t, t <+: src → Counted t := by
  have hsize : ∀ (t : List Char) k,
      (utf8 (t ++ List.replicate k '\x7b')).length = (utf8 t).length + k := by
    intro t k
    rw [utf8_append, List.length_append, Nat.add_left_cancel_iff]
    induction k with
    | zero => rfl
    | succ k ih =>
      rw [List.replicate_succ, utf8_cons, List.length_append, ih]
      exact Nat.add_comm 1 k
  have hmono : ∀ t t' : List Char, t <+: t' → (utf8 t).length ≤ (utf8 t').length := by
    rintro t _ ⟨rest, rfl⟩
    rw [utf8_append, List.length_append]
    exact Nat.le_add_right _ _
  have hsound : ∀ t, Sound t ↔
      Guarded scanner KdlText.reader (fun t => (utf8 t).length) maxConfigBytes maxNestingDepth t :=
    fun t => imp_congr_left guardInput_iff
  have hcounted : ∀ t, Counted t ↔
      Covered scanner KdlText.reader (fun t => (utf8 t).length) maxConfigBytes maxNestingDepth
        t := by
    intro t
    simp only [Counted, Covered, quoting_sees, Bool.not_eq_true']
    rfl
  simp only [hsound, hcounted]
  exact guards_iff hsize hmono src

/-! ## Legible texts -/

open KdlText (Context bare)

/-- A character that the guard takes for what it is. A comment has no quote. In a multi-line string
the quotes come in twos, but for those behind a backslash and the three at its end. A raw string has
no backslash; one of a single line has no quote but the last, and in one of several lines they come
in twos. -/
def LegibleChar : Context → Char → Prop
  | .lineComment, x => x ≠ KdlText.dquote
  | .blockComment _ _, x => x ≠ KdlText.dquote
  | .multiline quotes _, x => quotes % 2 = 1 → x = KdlText.dquote
  | .rawOpened _, x => x ≠ KdlText.backslash
  | .rawEmpty _, x => x = KdlText.dquote ∨ x = '#'
  | .raw _ need quotes _, x =>
    if quotes % 2 = 0 then x ≠ KdlText.backslash
    else if quotes = need then x = '#'
    else x = KdlText.dquote
  | _, _ => True

/-- From a place on, with so many braces open there: each character is legible, and the braces in
comments leave as many open as there are blocks around. -/
def LegibleFrom (p : Place Context) (braces : Nat) : List Char → Prop
  | [] => p.depth ≤ braces
  | x :: xs => p.depth ≤ braces ∧ LegibleChar p.context x ∧
    LegibleFrom (KdlText.reader.step p x) (bare.nest p.context braces x) xs

def Legible (src : List Char) : Prop := LegibleFrom ⟨.nodes, 0, 0⟩ 0 src

instance decidableLegibleChar (s : Context) (x : Char) : Decidable (LegibleChar s x) :=
  match s with
  | .lineComment => inferInstanceAs (Decidable (x ≠ KdlText.dquote))
  | .blockComment _ _ => inferInstanceAs (Decidable (x ≠ KdlText.dquote))
  | .multiline quotes _ => inferInstanceAs (Decidable (quotes % 2 = 1 → x = KdlText.dquote))
  | .rawOpened _ => inferInstanceAs (Decidable (x ≠ KdlText.backslash))
  | .rawEmpty _ => inferInstanceAs (Decidable (x = KdlText.dquote ∨ x = '#'))
  | .raw _ need quotes _ => inferInstanceAs (Decidable (if quotes % 2 = 0 then
      x ≠ KdlText.backslash else if quotes = need then x = '#' else x = KdlText.dquote))
  | .nodes => .isTrue trivial
  | .slash => .isTrue trivial
  | .signs _ => .isTrue trivial
  | .opened => .isTrue trivial
  | .empty => .isTrue trivial
  | .quoted _ => .isTrue trivial

instance decidableLegibleFrom : ∀ (p : Place Context) (braces : Nat) (xs : List Char),
    Decidable (LegibleFrom p braces xs)
  | p, braces, [] => inferInstanceAs (Decidable (p.depth ≤ braces))
  | p, braces, x :: xs =>
    let _ := decidableLegibleFrom (KdlText.reader.step p x) (bare.nest p.context braces x) xs
    inferInstanceAs (Decidable (_ ∧ _ ∧ _))

instance (src : List Char) : Decidable (Legible src) := decidableLegibleFrom _ _ src

/-- What the guard knows of a place in a legible text. -/
def guardView : Context → Quoting
  | .opened => ⟨true, false⟩
  | .rawOpened _ => ⟨true, false⟩
  | .quoted escaped => ⟨true, escaped⟩
  | .multiline quotes escaped => ⟨quotes % 2 = 0, escaped⟩
  | .raw _ _ quotes _ => ⟨quotes % 2 = 0, false⟩
  | .nodes | .slash | .signs _ | .empty | .rawEmpty _ | .lineComment | .blockComment _ _ =>
    ⟨false, false⟩

/-- The counts of a context that a text can come to. -/
def Proper : Context → Prop
  | .multiline quotes escaped => escaped = true → quotes = 0
  | .raw _ need quotes signs => need % 2 = 1 ∧ quotes ≤ need ∧ (signs ≠ 0 → quotes = need)
  | _ => True

theorem proper_nextNodes (x : Char) : Proper (KdlText.nextNodes x) := by
  unfold KdlText.nextNodes
  split_ifs <;> trivial

theorem proper_nextRaw (n : Nat) {need quotes : Nat} (signs : Nat) (hneed : need % 2 = 1)
    (hquotes : quotes ≤ need) (x : Char) : Proper (KdlText.nextRaw n need quotes signs x) := by
  unfold KdlText.nextRaw
  split_ifs with hq hs hx hn
  · exact ⟨hneed, Nat.min_le_left _ _, fun h => absurd rfl h⟩
  · exact ⟨hneed, by omega, fun h => absurd rfl h⟩
  · trivial
  · exact ⟨hneed, hquotes, fun _ => hx.2⟩
  · exact ⟨hneed, Nat.zero_le _, fun h => absurd rfl h⟩

theorem Proper.next {s : Context} (h : Proper s) (x : Char) : Proper (KdlText.next s x) := by
  cases s with
  | nodes => exact proper_nextNodes x
  | slash | signs n | empty =>
    unfold KdlText.next
    dsimp only
    split_ifs <;> first | exact proper_nextNodes x | simp [Proper]
  | opened | quoted escaped =>
    simp only [KdlText.next, KdlText.nextQuoted]
    split_ifs <;> trivial
  | multiline quotes escaped =>
    simp only [KdlText.next, KdlText.nextMultiline]
    split_ifs <;> simp [Proper]
  | rawOpened n =>
    unfold KdlText.next
    dsimp only
    split_ifs
    · trivial
    · exact proper_nextRaw n 0 rfl (Nat.zero_le _) x
  | rawEmpty n =>
    unfold KdlText.next
    dsimp only
    split_ifs
    · exact ⟨rfl, Nat.zero_le _, fun h => absurd rfl h⟩
    · exact proper_nextRaw n 0 rfl (Nat.le_refl _) x
  | raw n need quotes signs => exact proper_nextRaw n signs h.1 h.2.1 x
  | lineComment =>
    unfold KdlText.next
    dsimp only
    split_ifs <;> trivial
  | blockComment depth last =>
    simp only [KdlText.next, KdlText.nextBlockComment]
    split_ifs <;> trivial

theorem nextQuoting_outside (x : Char) :
    nextQuoting '\x5c' '\x22' ⟨false, false⟩ x = ⟨decide (x = KdlText.dquote), false⟩ := by
  by_cases h : x = '\x22' <;> simp [nextQuoting, KdlText.dquote, h]

theorem nextQuoting_inside (x : Char) :
    nextQuoting '\x5c' '\x22' ⟨true, false⟩ x
      = ⟨decide (x ≠ KdlText.dquote), decide (x = KdlText.backslash)⟩ := by
  by_cases he : x = '\x5c'
  · simp [nextQuoting, KdlText.dquote, KdlText.backslash, he]
  by_cases hq : x = '\x22' <;> simp [nextQuoting, KdlText.dquote, KdlText.backslash, he, hq]

theorem guardView_nextNodes (x : Char) :
    guardView (KdlText.nextNodes x) = ⟨decide (x = KdlText.dquote), false⟩ := by
  unfold KdlText.nextNodes
  split_ifs with hq hs hx <;> simp [guardView, hq]

theorem guardView_nextQuoted (x : Char) :
    guardView (KdlText.nextQuoted false x)
      = ⟨decide (x ≠ KdlText.dquote), decide (x = KdlText.backslash)⟩ := by
  by_cases he : x = KdlText.backslash
  · simp [KdlText.nextQuoted, guardView, he, KdlText.backslash, KdlText.dquote]
  by_cases hq : x = KdlText.dquote
  · subst hq
    rfl
  · simp [KdlText.nextQuoted, guardView, he, hq]

/-- A quote turns the guard around. -/
theorem nextQuoting_dquote (inString : Bool) :
    nextQuoting '\x5c' '\x22' ⟨inString, false⟩ KdlText.dquote = ⟨!inString, false⟩ := by
  cases inString <;> rfl

theorem guardView_nextMultiline {quotes : Nat} {x : Char}
    (hx : quotes % 2 = 1 → x = KdlText.dquote) :
    nextQuoting '\x5c' '\x22' ⟨quotes % 2 = 0, false⟩ x
      = guardView (KdlText.nextMultiline quotes false x) := by
  by_cases hq : x = KdlText.dquote
  · subst hq
    have hne : KdlText.dquote ≠ KdlText.backslash := by decide
    rw [nextQuoting_dquote]
    simp only [KdlText.nextMultiline, Bool.false_eq_true, if_false, if_neg hne, if_true]
    split_ifs with h2
    · simp [guardView, h2]
    · simp only [guardView, ← decide_not, Quoting.mk.injEq, decide_eq_decide, and_true]
      omega
  · have heven : quotes % 2 = 0 := by
      have := mt hx hq
      omega
    simp only [heven, decide_true, nextQuoting_inside]
    by_cases he : x = KdlText.backslash
    · subst he
      rfl
    · simp [KdlText.nextMultiline, guardView, hq, he]

theorem guardView_nextRaw {n need quotes signs : Nat} (hneed : need % 2 = 1)
    (hquotes : quotes ≤ need) (hsigns : signs ≠ 0 → quotes = need) {x : Char}
    (hx : LegibleChar (.raw n need quotes signs) x) :
    nextQuoting '\x5c' '\x22' ⟨quotes % 2 = 0, false⟩ x
      = guardView (KdlText.nextRaw n need quotes signs x) := by
  unfold LegibleChar at hx
  dsimp only at hx
  split_ifs at hx with heven hall
  · -- the guard is in the string
    simp only [heven, decide_true, nextQuoting_inside, KdlText.nextRaw]
    have hne : ¬ (x = '#' ∧ quotes = need) := by omega
    by_cases hq : x = KdlText.dquote
    · have hodd : ¬ (if signs = 0 then min need (quotes + 1) else 1) % 2 = 0 := by
        split_ifs <;> omega
      simp [hq, guardView, hodd, KdlText.dquote, KdlText.backslash]
    · simp [hq, hne, hx, guardView]
  · -- it is behind the quotes that end the string
    subst hx
    have hq : ¬ '#' = KdlText.dquote := by decide
    have houtside : nextQuoting '\x5c' '\x22' ⟨quotes % 2 = 0, false⟩ '#' = ⟨false, false⟩ := by
      rw [decide_eq_false heven]
      rfl
    rw [houtside, KdlText.nextRaw, if_neg hq, if_pos ⟨rfl, hall⟩]
    split_ifs <;> simp [guardView, heven]
  · -- it is between two quotes of the string
    subst hx
    have hnone : signs = 0 := by
      by_contra h
      exact hall (hsigns h)
    have hmin : min need (quotes + 1) % 2 = 0 := by omega
    simp [nextQuoting_dquote, KdlText.nextRaw, guardView, heven, hnone, hmin]

/-- The guard goes along with the language over a legible character. -/
theorem guardView_next {s : Context} (hs : Proper s) {x : Char} (hx : LegibleChar s x) :
    nextQuoting '\x5c' '\x22' (guardView s) x = guardView (KdlText.next s x) := by
  cases s with
  | nodes => exact (nextQuoting_outside x).trans (guardView_nextNodes x).symm
  | slash =>
    rw [guardView, nextQuoting_outside, KdlText.next]
    split_ifs with hslash hstar
    · simp [hslash, KdlText.dquote, guardView]
    · simp [hstar, KdlText.dquote, guardView]
    · exact (guardView_nextNodes x).symm
  | signs n =>
    rw [guardView, nextQuoting_outside, KdlText.next]
    split_ifs with hsign hq
    · simp [hsign, KdlText.dquote, guardView]
    · simp [hq, guardView]
    · exact (guardView_nextNodes x).symm
  | opened =>
    rw [guardView, nextQuoting_inside, KdlText.next]
    split_ifs with hq
    · simp [hq, KdlText.dquote, KdlText.backslash, guardView]
    · exact (guardView_nextQuoted x).symm
  | empty =>
    rw [guardView, nextQuoting_outside, KdlText.next]
    split_ifs with hq
    · simp [hq, guardView]
    · exact (guardView_nextNodes x).symm
  | quoted escaped =>
    cases escaped with
    | true => rfl
    | false => exact (nextQuoting_inside x).trans (guardView_nextQuoted x).symm
  | multiline quotes escaped =>
    cases escaped with
    | true =>
      obtain rfl := hs rfl
      rfl
    | false => exact guardView_nextMultiline hx
  | rawOpened n =>
    rw [guardView, nextQuoting_inside, KdlText.next]
    have he : x ≠ KdlText.backslash := hx
    split_ifs with hq
    · simp [hq, KdlText.dquote, KdlText.backslash, guardView]
    · simp [KdlText.nextRaw, guardView, hq, he]
  | rawEmpty n =>
    rw [guardView, nextQuoting_outside, KdlText.next]
    split_ifs with hq
    · simp [hq, guardView]
    · obtain rfl := Or.resolve_left hx hq
      simp only [KdlText.nextRaw, if_neg hq, true_and]
      split_ifs <;> simp [guardView, hq]
  | raw n need quotes signs => exact guardView_nextRaw hs.1 hs.2.1 hs.2.2 hx
  | lineComment =>
    have hq : x ≠ KdlText.dquote := hx
    rw [guardView, nextQuoting_outside, KdlText.next]
    split_ifs <;> simp [guardView, hq]
  | blockComment depth last =>
    have hq : x ≠ KdlText.dquote := hx
    simp only [guardView, nextQuoting_outside, KdlText.next, KdlText.nextBlockComment]
    split_ifs <;> simp [hq]

/-- It counts the braces outside of strings. -/
theorem guard_nest {s : Context} {x : Char} (hx : LegibleChar s x) (depth : Nat) :
    scanner.nest (guardView s) depth x = bare.nest s depth x := by
  by_cases ho : x = '\x7b' ∨ x = '\x7d'
  · -- a brace does not stand where the guard is outside of a string and the language is not
    have hq : x ≠ KdlText.dquote := by rcases ho with rfl | rfl <;> decide
    have hsign : x ≠ '#' := by rcases ho with rfl | rfl <;> decide
    have hsees : (!(guardView s).inString) = (KdlText.sees s || KdlText.isComment s) := by
      cases s with
      | multiline quotes escaped =>
        have heven : quotes % 2 = 0 := by
          have := mt hx hq
          omega
        simp [guardView, KdlText.sees, KdlText.isComment, heven]
      | rawEmpty n => exact absurd hx (by simp [LegibleChar, hq, hsign])
      | raw n need quotes signs =>
        have heven : quotes % 2 = 0 := by
          by_contra hodd
          simp only [LegibleChar, if_neg hodd] at hx
          split_ifs at hx <;> contradiction
        simp [guardView, KdlText.sees, KdlText.isComment, heven]
      | _ => rfl
    unfold Reader.nest
    rw [quoting_sees, hsees]
    rfl
  · rw [not_or] at ho
    rw [scanner.nest_other depth ho.1 ho.2, bare.nest_other depth ho.1 ho.2]

/-- Over a legible text, the guard has counted at least the blocks. -/
theorem peak_le_of_legible (xs : List Char) : ∀ {p : Place Context} {q : Place Quoting},
    LegibleFrom p q.depth xs → Proper p.context → q.context = guardView p.context →
    p.peak ≤ q.peak →
    (xs.foldl KdlText.reader.step p).peak ≤ (xs.foldl scanner.step q).peak := by
  induction xs with
  | nil => exact fun _ _ _ hpeak => hpeak
  | cons x xs ih =>
    intro p q hlegible hproper hview hpeak
    obtain ⟨-, hx, hrest⟩ := hlegible
    have hnest : scanner.nest q.context q.depth x = bare.nest p.context q.depth x := by
      rw [hview, guard_nest hx]
    have hcover : (KdlText.reader.step p x).depth ≤ (scanner.step q x).depth := by
      rw [Reader.step_depth scanner, hnest]
      cases xs with
      | nil => exact hrest
      | cons y ys => exact hrest.1
    refine ih (p := KdlText.reader.step p x) (q := scanner.step q x) ?_ (hproper.next x) ?_ ?_
    · rwa [Reader.step_depth scanner, hnest]
    · rw [Reader.step_context, hview]
      exact guardView_next hproper hx
    · exact max_le_max hpeak hcover

/-- **The guard.** What it accepts of the legible texts is nested no deeper than it allows. -/
theorem legible_sound (src : List Char) (h : Legible src) : Sound src := by
  intro haccepts
  obtain ⟨-, hpeak⟩ := guardInput_iff.mp haccepts
  refine Nat.le_trans ?_ hpeak
  exact peak_le_of_legible src h trivial rfl (Nat.le_refl 0)

/-- Braces in comments, quotes in a multi-line string, and a raw string. -/
def commentedConfig : List Char :=
  "wallpaper \x7b // as in \x7bvideo\x7d\n  path #\x22/a\x22#\n".toList ++
    "  note \x22\x22\x22\n\x22\x22\x7b\n\x22\x22\x22\n\x7d".toList

theorem commentedConfig_shallow :
    guardInput commentedConfig = .ok () ∧ KdlText.blockDepth commentedConfig ≤ maxNestingDepth := by
  have haccepts : guardInput commentedConfig = .ok () :=
    guardInput_iff.mpr ⟨by decide +kernel, by decide +kernel⟩
  exact ⟨haccepts, legible_sound commentedConfig (by decide +kernel) haccepts⟩

/-- A comment with a quote, and a block more than there may be. -/
def quotedComment : List Char :=
  "// \x22\n".toList ++ (List.replicate 33 "a \x7b".toList).flatten ++ List.replicate 33 '\x7d'

theorem quote_in_comment_hides_blocks : ¬ ∀ src, Sound src := by
  intro hall
  have haccepts : guardInput quotedComment = .ok () :=
    guardInput_iff.mpr ⟨by decide +kernel, by decide +kernel⟩
  exact absurd (hall quotedComment haccepts) (by decide +kernel)

end Halmasuit.Kushuh
