import Mathlib.Algebra.Group.Nat.Defs
import Mathlib.Data.List.TakeWhile

/-!
# Taking texts apart

A text as a list, of characters or of bytes, and the functions of a standard library that cut it:
at the first or the last occurrence of an element, into lines, and to what is between the blanks at
its ends.

- `splitOnce_eq_some`, `rsplitOnce_eq_some`: what a cut gives;
- `infix_append_cons`: what stands in one of two lines;
- `lines_unlines`, `splitWhitespace_append`: the lines and the words of a text made of them;
- `fromStrRadix_numeral`: a number that was written in digits is read back;
- `fromStrRadix16_isSome_iff`: the texts that are read as a hexadecimal number. A sign is one of
  their letters.
-/

namespace Halmasuit.Lib.Text

theorem prefix_append_cons {α : Type} {b : α} {p l r : List α} (h : b ∉ p) :
    p <+: l ++ b :: r ↔ p <+: l := by
  refine ⟨fun hp => ?_, fun hp => hp.trans (List.prefix_append _ _)⟩
  induction l generalizing p with
  | nil =>
    cases p with
    | nil => exact List.prefix_refl []
    | cons c p =>
      obtain ⟨rfl, -⟩ := List.cons_prefix_cons.mp hp
      exact absurd List.mem_cons_self h
  | cons d l ih =>
    cases p with
    | nil => exact List.nil_prefix
    | cons c p =>
      obtain ⟨rfl, hp'⟩ := List.cons_prefix_cons.mp hp
      exact List.cons_prefix_cons.mpr ⟨rfl, ih (List.not_mem_of_not_mem_cons h) hp'⟩

/-- What has no `b` in it does not stand across one. -/
theorem infix_append_cons {α : Type} {b : α} {p l r : List α} (hne : p ≠ []) (h : b ∉ p) :
    p <:+: l ++ b :: r ↔ p <:+: l ∨ p <:+: r := by
  induction l with
  | nil =>
    rw [List.nil_append, List.infix_cons_iff, ← List.nil_append (b :: r), prefix_append_cons h]
    simp [hne]
  | cons c l ih =>
    rw [List.cons_append, List.infix_cons_iff, ← List.cons_append, prefix_append_cons h, ih,
      List.infix_cons_iff, or_assoc]

section
variable {α : Type} [DecidableEq α]

/-- Cut at the first occurrence of `b`. -/
def splitOnce (b : α) : List α → Option (List α × List α)
  | [] => none
  | c :: cs =>
    if c = b then some ([], cs) else (splitOnce b cs).map fun r => (c :: r.1, r.2)

/-- The text before the first `b`, and the text after it. -/
theorem splitOnce_eq_some {b : α} {s l r : List α} :
    splitOnce b s = some (l, r) ↔ s = l ++ b :: r ∧ b ∉ l := by
  induction s generalizing l with
  | nil => simp [splitOnce]
  | cons c cs ih =>
    unfold splitOnce
    by_cases hc : c = b
    · subst hc
      rw [if_pos rfl]
      cases l with
      | nil => simp
      | cons d l =>
        simp only [Option.some.injEq, Prod.mk.injEq, reduceCtorEq, false_and, List.cons_append,
          List.cons.injEq, List.mem_cons, not_or, false_iff]
        rintro ⟨⟨rfl, -⟩, hne, -⟩
        exact hne rfl
    · rw [if_neg hc]
      cases l with
      | nil =>
        simp only [Option.map_eq_some_iff, Prod.mk.injEq, reduceCtorEq, false_and, and_false,
          exists_false, List.nil_append, List.cons.injEq, false_iff]
        rintro ⟨⟨rfl, -⟩, -⟩
        exact hc rfl
      | cons d l =>
        simp only [Option.map_eq_some_iff, Prod.exists, Prod.mk.injEq, List.cons.injEq,
          List.cons_append, List.mem_cons, not_or]
        constructor
        · rintro ⟨l', r', h, ⟨rfl, rfl⟩, rfl⟩
          obtain ⟨rfl, hl⟩ := ih.mp h
          exact ⟨⟨rfl, rfl⟩, Ne.symm hc, hl⟩
        · rintro ⟨⟨rfl, rfl⟩, -, hl⟩
          exact ⟨l, r, ih.mpr ⟨rfl, hl⟩, ⟨rfl, rfl⟩, rfl⟩

/-- Cut at the last occurrence of `b`. -/
def rsplitOnce (b : α) : List α → Option (List α × List α)
  | [] => none
  | c :: cs =>
    match rsplitOnce b cs with
    | some r => some (c :: r.1, r.2)
    | none => if c = b then some ([], cs) else none

theorem rsplitOnce_eq_none {b : α} {s : List α} : rsplitOnce b s = none ↔ b ∉ s := by
  induction s with
  | nil => simp [rsplitOnce]
  | cons c cs ih =>
    unfold rsplitOnce
    cases h : rsplitOnce b cs with
    | some r =>
      have hmem : b ∈ cs := by
        by_contra hno
        rw [ih.mpr hno] at h
        cases h
      simp [hmem]
    | none =>
      have hno := ih.mp h
      by_cases hc : c = b
      · simp [hc]
      · simp [hc, hno, Ne.symm hc]

/-- The text before the last `b`, and the text after it. -/
theorem rsplitOnce_eq_some {b : α} {s l r : List α} :
    rsplitOnce b s = some (l, r) ↔ s = l ++ b :: r ∧ b ∉ r := by
  induction s generalizing l with
  | nil => simp [rsplitOnce]
  | cons c cs ih =>
    unfold rsplitOnce
    cases h : rsplitOnce b cs with
    | some p =>
      obtain ⟨l', r'⟩ := p
      dsimp only
      rw [Option.some.injEq, Prod.mk.injEq]
      constructor
      · rintro ⟨rfl, rfl⟩
        obtain ⟨rfl, hno⟩ := ih.mp h
        exact ⟨rfl, hno⟩
      · rintro ⟨heq, hno⟩
        cases l with
        | nil =>
          obtain ⟨-, rfl⟩ := List.cons.inj heq
          rw [rsplitOnce_eq_none.mpr hno] at h
          cases h
        | cons a l =>
          obtain ⟨rfl, hcs⟩ := List.cons.inj heq
          obtain ⟨rfl, rfl⟩ := Prod.mk.inj (Option.some.inj (h.symm.trans (ih.mpr ⟨hcs, hno⟩)))
          exact ⟨rfl, rfl⟩
    | none =>
      have hcs := rsplitOnce_eq_none.mp h
      dsimp only
      by_cases hc : c = b
      · subst hc
        rw [if_pos rfl, Option.some.injEq, Prod.mk.injEq]
        constructor
        · rintro ⟨rfl, rfl⟩
          exact ⟨rfl, hcs⟩
        · rintro ⟨heq, -⟩
          cases l with
          | nil => exact ⟨rfl, (List.cons.inj heq).2⟩
          | cons a l =>
            obtain ⟨-, rfl⟩ := List.cons.inj heq
            exact absurd (by simp) hcs
      · rw [if_neg hc]
        refine iff_of_false nofun ?_
        rintro ⟨heq, -⟩
        have hmem : b ∈ c :: cs := by
          rw [heq]
          simp
        rcases List.mem_cons.mp hmem with rfl | hmem
        · exact hc rfl
        · exact hcs hmem

end

/-! ## Blanks -/

/-- The property `White_Space`. -/
def isWhitespace (c : Char) : Bool :=
  decide (c.toNat ∈ [0x20, 0x85, 0xa0, 0x1680, 0x2028, 0x2029, 0x202f, 0x205f, 0x3000]) ||
    decide (0x9 ≤ c.toNat ∧ c.toNat ≤ 0xd) || decide (0x2000 ≤ c.toNat ∧ c.toNat ≤ 0x200a)

/-- A text without the blanks at its ends. -/
def trim (s : List Char) : List Char :=
  ((s.dropWhile isWhitespace).reverse.dropWhile isWhitespace).reverse

/-- The text is empty or all blanks. -/
def blank (s : List Char) : Bool := (trim s).isEmpty

theorem dropWhile_of_head {s : List Char} (h : ∀ c ∈ s.head?, isWhitespace c = false) :
    s.dropWhile isWhitespace = s := by
  cases s with
  | nil => rfl
  | cons c cs => exact List.dropWhile_cons_of_neg (by simpa using h)

/-- A blank in front of a text that begins and ends in something else. -/
theorem trim_cons {c : Char} (hc : isWhitespace c = true) {s : List Char}
    (hhead : ∀ x ∈ s.head?, isWhitespace x = false)
    (hlast : ∀ x ∈ s.getLast?, isWhitespace x = false) : trim (c :: s) = s := by
  unfold trim
  rw [List.dropWhile_cons_of_pos hc, dropWhile_of_head hhead,
    dropWhile_of_head (by rwa [List.head?_reverse]), List.reverse_reverse]

/-! ## Lines -/

/-- A line without the carriage return at its end. -/
def stripCr (l : List Char) : List Char := if l.getLast? = some '\r' then l.dropLast else l

/-- The lines of a text. A line ends in a line feed, or in a carriage return and a line feed; the
last one need not end. -/
def lines (s : List Char) : List (List Char) :=
  ((s.splitOn '\n').dropLast.map stripCr) ++ (s.splitOn '\n').getLast?.toList.filter (fun l => !l.isEmpty)

/-- A text that ends each of its lines. -/
def unlines (ls : List (List Char)) : List Char := ls.flatMap fun l => l ++ ['\n']

theorem splitOn_unlines {ls : List (List Char)} (h : ∀ l ∈ ls, '\n' ∉ l) :
    (unlines ls).splitOn '\n' = ls ++ [[]] := by
  induction ls with
  | nil => rfl
  | cons l ls ih =>
    rw [List.forall_mem_cons] at h
    rw [unlines, List.flatMap_cons, List.append_assoc, List.singleton_append,
      List.splitOn_append_cons_self_of_not_mem h.1, ← unlines, ih h.2, List.cons_append]

/-- The lines of a text that ends each of them are these lines. -/
theorem lines_unlines {ls : List (List Char)} (h : ∀ l ∈ ls, '\n' ∉ l) :
    lines (unlines ls) = ls.map stripCr := by
  unfold lines
  rw [splitOn_unlines h, List.dropLast_concat, List.getLast?_concat]
  simp

/-- The words between the blanks. -/
def splitWhitespace (s : List Char) : List (List Char) :=
  (s.splitOnP isWhitespace).filter fun w => !w.isEmpty

theorem splitWhitespace_word {w : List Char} (hne : w ≠ [])
    (hw : ∀ c ∈ w, isWhitespace c = false) : splitWhitespace w = [w] := by
  unfold splitWhitespace
  rw [List.splitOnP_eq_singleton hw]
  simp [hne]

/-- A word in front of a blank. -/
theorem splitWhitespace_append {w : List Char} (hne : w ≠ [])
    (hw : ∀ c ∈ w, isWhitespace c = false) {c : Char} (hc : isWhitespace c = true)
    (s : List Char) : splitWhitespace (w ++ c :: s) = w :: splitWhitespace s := by
  unfold splitWhitespace
  rw [List.splitOnP_append_cons_of_forall_mem hw c hc, List.filter_cons_of_pos (by simpa using hne)]

/-! ## Numbers -/

/-- The value of a digit in a base up to 16. -/
def toDigit (radix : Nat) (c : Char) : Option Nat :=
  let d :=
    if 0x30 ≤ c.toNat ∧ c.toNat ≤ 0x39 then c.toNat - 0x30
    else if 0x41 ≤ c.toNat ∧ c.toNat ≤ 0x46 then c.toNat - 0x37
    else if 0x61 ≤ c.toNat ∧ c.toNat ≤ 0x66 then c.toNat - 0x57
    else radix
  if d < radix then some d else none

/-- The number that digits say, after those of `acc`. -/
def numeral (radix acc : Nat) : List Char → Option Nat
  | [] => some acc
  | c :: cs => (toDigit radix c).bind fun d => numeral radix (acc * radix + d) cs

/-- The text is the number. -/
def IsNumeral (radix : Nat) (s : List Char) (n : Nat) : Prop := s ≠ [] ∧ numeral radix 0 s = some n

instance (radix : Nat) (s : List Char) (n : Nat) : Decidable (IsNumeral radix s n) :=
  inferInstanceAs (Decidable (_ ∧ _))

/-- The digits after those of `acc`, for a type with `bound` values. -/
def digits (radix bound acc : Nat) : List Char → Option Nat
  | [] => some acc
  | c :: cs => (toDigit radix c).bind fun d =>
    if acc * radix + d < bound then digits radix bound (acc * radix + d) cs else none

/-- An unsigned number of a type with `bound` values. A `+` may stand before the digits. -/
def fromStrRadix (radix bound : Nat) : List Char → Option Nat
  | [] => none
  | c :: cs =>
    if c = '+' then if cs = [] then none else digits radix bound 0 cs
    else digits radix bound 0 (c :: cs)

theorem le_of_numeral {radix acc n : Nat} (hr : 1 ≤ radix) {s : List Char}
    (h : numeral radix acc s = some n) : acc ≤ n := by
  induction s generalizing acc with
  | nil => exact Nat.le_of_eq (Option.some.inj h)
  | cons c cs ih =>
    obtain ⟨d, -, hd⟩ := Option.bind_eq_some_iff.mp h
    have hle := ih hd
    have hmul : acc * 1 ≤ acc * radix := Nat.mul_le_mul_left acc hr
    omega

theorem digits_of_numeral {radix bound acc n : Nat} (hr : 1 ≤ radix) (hn : n < bound)
    {s : List Char} (h : numeral radix acc s = some n) : digits radix bound acc s = some n := by
  induction s generalizing acc with
  | nil => exact h
  | cons c cs ih =>
    obtain ⟨d, hc, hd⟩ := Option.bind_eq_some_iff.mp h
    have hle := le_of_numeral hr hd
    simp only [digits, hc, Option.bind_some, if_pos (Nat.lt_of_le_of_lt hle hn), ih hd]

/-- Every digit is in one of the three ranges. -/
theorem range_of_toDigit {radix d : Nat} {c : Char} (h : toDigit radix c = some d) :
    0x30 ≤ c.toNat ∧ c.toNat ≤ 0x66 := by
  unfold toDigit at h
  dsimp only at h
  split_ifs at h with h1 h2 h3 <;> omega

/-- A number that fits is read back. -/
theorem fromStrRadix_numeral {radix bound n : Nat} (hr : 1 ≤ radix) (hn : n < bound)
    {s : List Char} (h : IsNumeral radix s n) : fromStrRadix radix bound s = some n := by
  obtain ⟨hne, h⟩ := h
  cases s with
  | nil => exact absurd rfl hne
  | cons c cs =>
    have hplus : c ≠ '+' := by
      rintro rfl
      obtain ⟨d, hd, -⟩ := Option.bind_eq_some_iff.mp h
      exact absurd (range_of_toDigit hd).1 (by decide)
    rw [fromStrRadix, if_neg hplus]
    exact digits_of_numeral hr hn h

/-- A digit is no blank. -/
theorem not_blank_of_toDigit {radix d : Nat} {c : Char} (h : toDigit radix c = some d) :
    isWhitespace c = false := by
  have hc := range_of_toDigit h
  simp only [isWhitespace, List.mem_cons, List.not_mem_nil, or_false, Bool.or_eq_false_iff,
    decide_eq_false_iff_not]
  omega

theorem not_blank_of_numeral {radix acc n : Nat} {s : List Char}
    (h : numeral radix acc s = some n) : ∀ c ∈ s, isWhitespace c = false := by
  induction s generalizing acc with
  | nil => exact fun c hc => absurd hc List.not_mem_nil
  | cons c cs ih =>
    obtain ⟨d, hc, hd⟩ := Option.bind_eq_some_iff.mp h
    exact List.forall_mem_cons.mpr ⟨not_blank_of_toDigit hc, ih hd⟩

/-! ## Hexadecimal numbers -/

/-- A byte that is a hexadecimal digit, of either case. -/
def IsHex (b : UInt8) : Prop :=
  (0x30 ≤ b ∧ b ≤ 0x39) ∨ (0x41 ≤ b ∧ b ≤ 0x46) ∨ (0x61 ≤ b ∧ b ≤ 0x66)

instance (b : UInt8) : Decidable (IsHex b) := inferInstanceAs (Decidable (_ ∨ _ ∨ _))

/-- The value of a hexadecimal digit. -/
def toDigit16 (b : UInt8) : Option Nat :=
  if 0x30 ≤ b ∧ b ≤ 0x39 then some (b.toNat - 0x30)
  else if 0x41 ≤ b ∧ b ≤ 0x46 then some (b.toNat - 0x37)
  else if 0x61 ≤ b ∧ b ≤ 0x66 then some (b.toNat - 0x57)
  else none

/-- The digits after those of `acc`, for a type with `bound` values. -/
def digits16 (bound acc : Nat) : List UInt8 → Option Nat
  | [] => some acc
  | b :: bs =>
    match toDigit16 b with
    | some d => if acc * 16 + d < bound then digits16 bound (acc * 16 + d) bs else none
    | none => none

/-- An unsigned number of a type with `bound` values, in base 16. A `+` may stand before the
digits, a `-` may not, and neither is a number by itself. -/
def fromStrRadix16 (bound : Nat) : List UInt8 → Option Nat
  | [] => none
  | b :: bs =>
    if b = 0x2b then if bs = [] then none else digits16 bound 0 bs
    else digits16 bound 0 (b :: bs)

theorem toDigit16_eq_none {b : UInt8} (h : ¬ IsHex b) : toDigit16 b = none := by
  simp only [IsHex, not_or] at h
  simp only [toDigit16, if_neg h.1, if_neg h.2.1, if_neg h.2.2]

theorem toDigit16_of_isHex {b : UInt8} (h : IsHex b) : ∃ d < 16, toDigit16 b = some d := by
  simp only [IsHex, UInt8.le_iff_toNat_le, UInt8.reduceToNat] at h
  simp only [toDigit16, UInt8.le_iff_toNat_le, UInt8.reduceToNat]
  split
  · exact ⟨_, by omega, rfl⟩
  split
  · exact ⟨_, by omega, rfl⟩
  rw [if_pos (by omega)]
  exact ⟨_, by omega, rfl⟩

/-- As many digits as always fit. -/
theorem digits16_isSome_iff {bound acc : Nat} {s : List UInt8}
    (h : (acc + 1) * 16 ^ s.length ≤ bound) :
    (digits16 bound acc s).isSome = true ↔ ∀ b ∈ s, IsHex b := by
  induction s generalizing acc with
  | nil => simp [digits16]
  | cons b bs ih =>
    rw [digits16]
    by_cases hb : IsHex b
    · obtain ⟨d, hd, heq⟩ := toDigit16_of_isHex hb
      have hle : (acc * 16 + d + 1) * 16 ^ bs.length ≤ bound := by
        refine le_trans ?_ h
        rw [List.length_cons, Nat.pow_succ', ← Nat.mul_assoc]
        exact Nat.mul_le_mul_right _ (by omega)
      have hlt : acc * 16 + d + 1 ≤ bound :=
        le_trans (Nat.le_mul_of_pos_right _ (Nat.pow_pos (by omega))) hle
      simp only [heq, if_pos (Nat.lt_of_succ_le hlt), ih hle, List.forall_mem_cons, hb, true_and]
    · simp [toDigit16_eq_none hb, hb]

/-- A field of the length of the type's numbers, or shorter. -/
theorem fromStrRadix16_isSome_iff {bound : Nat} {s : List UInt8} (h : 16 ^ s.length ≤ bound) :
    (fromStrRadix16 bound s).isSome = true ↔
      (s ≠ [] ∧ ∀ b ∈ s, IsHex b) ∨ ∃ r, s = 0x2b :: r ∧ r ≠ [] ∧ ∀ b ∈ r, IsHex b := by
  cases s with
  | nil => simp [fromStrRadix16]
  | cons b bs =>
    rw [fromStrRadix16]
    by_cases hb : b = 0x2b
    · subst hb
      have hno : ¬ IsHex 0x2b := by decide
      rw [if_pos rfl]
      by_cases hbs : bs = []
      · subst hbs
        simp [hno]
      · have hle : (0 + 1) * 16 ^ bs.length ≤ bound := by
          rw [Nat.zero_add, Nat.one_mul]
          exact le_trans (Nat.pow_le_pow_right (by omega) (by simp)) h
        rw [if_neg hbs, digits16_isSome_iff hle]
        simp [hno, hbs]
    · rw [if_neg hb, digits16_isSome_iff (by simpa using h)]
      simp [hb]

end Halmasuit.Lib.Text
