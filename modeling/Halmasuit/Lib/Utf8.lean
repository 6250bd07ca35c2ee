import Mathlib.Data.List.Basic

/-!
# Characters as bytes

A text in UTF-8: the characters below `U+0080` are a byte each, which is their number, and every
other character is two bytes or more, all of them above `0x7f` (`encode_ascii`, `encode_high`). So
what looks at single bytes sees the first kind as characters and cannot tell apart the bytes of the
second.
-/

namespace Halmasuit.Lib.Utf8

/-- The bytes of a text. -/
def utf8 (t : List Char) : List UInt8 := t.flatMap String.utf8EncodeChar

@[simp] theorem utf8_nil : utf8 [] = [] := rfl

@[simp] theorem utf8_append (t t' : List Char) : utf8 (t ++ t') = utf8 t ++ utf8 t' :=
  List.flatMap_append

theorem utf8_cons (c : Char) (t : List Char) :
    utf8 (c :: t) = String.utf8EncodeChar c ++ utf8 t := rfl

@[simp] theorem utf8_singleton (c : Char) : utf8 [c] = String.utf8EncodeChar c := by
  simp [utf8]

theorem utf8Size_eq_one_iff {c : Char} : c.utf8Size = 1 ↔ c.toNat < 0x80 := by
  rw [Char.utf8Size_eq_one_iff, UInt32.le_iff_toNat_le]
  exact Nat.lt_succ_iff.symm

theorem encode_ascii {c : Char} (h : c.toNat < 0x80) :
    String.utf8EncodeChar c = [UInt8.ofNat c.toNat] :=
  String.utf8EncodeChar_eq_singleton (utf8Size_eq_one_iff.mpr h)

theorem high_or (a : UInt8) {b : UInt8} (h : 0x80 ≤ b) : 0x80 ≤ a ||| b := by
  rw [UInt8.le_iff_toNat_le] at h ⊢
  rw [UInt8.toNat_or]
  exact Nat.le_trans h Nat.right_le_or

theorem encode_high {c : Char} (h : 0x80 ≤ c.toNat) :
    2 ≤ (String.utf8EncodeChar c).length ∧ ∀ b ∈ String.utf8EncodeChar c, 0x80 ≤ b := by
  have hone : c.utf8Size ≠ 1 := fun heq => absurd (utf8Size_eq_one_iff.mp heq) (by omega)
  have hpos : 0 < c.utf8Size := Char.utf8Size_pos c
  have hfour : c.utf8Size ≤ 4 := Char.utf8Size_le_four c
  refine ⟨by rw [String.length_utf8EncodeChar]; omega, ?_⟩
  obtain h2 | h3 | h4 : c.utf8Size = 2 ∨ c.utf8Size = 3 ∨ c.utf8Size = 4 := by omega
  · rw [String.utf8EncodeChar_eq_cons_cons h2]
    simp only [List.forall_mem_cons]
    exact ⟨high_or _ (by decide), high_or _ (by decide), nofun⟩
  · rw [String.utf8EncodeChar_eq_cons_cons_cons h3]
    simp only [List.forall_mem_cons]
    exact ⟨high_or _ (by decide), high_or _ (by decide), high_or _ (by decide), nofun⟩
  · rw [String.utf8EncodeChar_eq_cons_cons_cons_cons h4]
    simp only [List.forall_mem_cons]
    exact ⟨high_or _ (by decide), high_or _ (by decide), high_or _ (by decide),
      high_or _ (by decide), nofun⟩

/-- A condition on bytes that takes each character whole takes the bytes of the characters that meet
the condition on characters. -/
theorem filter_utf8 {p : UInt8 → Bool} {q : Char → Bool}
    (h : ∀ c, ∀ b ∈ String.utf8EncodeChar c, p b = q c) (t : List Char) :
    (utf8 t).filter p = utf8 (t.filter q) := by
  induction t with
  | nil => rfl
  | cons c t ih =>
    rw [utf8_cons, List.filter_append, ih]
    by_cases hq : q c = true
    · rw [List.filter_cons_of_pos hq, utf8_cons, List.filter_eq_self.mpr]
      intro b hb
      rw [h c b hb, hq]
    · rw [List.filter_cons_of_neg hq, List.filter_eq_nil_iff.mpr, List.nil_append]
      intro b hb
      rw [h c b hb]
      exact hq

/-- Without its last byte, a text is that without its last character only if that is one byte. -/
theorem dropLast_utf8 (t : List Char) :
    (∀ b ∈ (utf8 t).getLast?, b < 0x80) ↔ (utf8 t).dropLast = utf8 t.dropLast := by
  rcases t.eq_nil_or_concat with rfl | ⟨t, c, rfl⟩
  · simp
  · rw [List.concat_eq_append, utf8_append, utf8_singleton, List.dropLast_concat]
    by_cases hc : c.toNat < 0x80
    · rw [encode_ascii hc, List.getLast?_concat, List.dropLast_concat]
      refine iff_of_true ?_ rfl
      rintro b hb
      obtain rfl := Option.some.inj hb
      rw [UInt8.lt_iff_toNat_lt, UInt8.toNat_ofNat']
      exact Nat.lt_of_le_of_lt (Nat.mod_le _ _) hc
    · obtain ⟨hlen, hhigh⟩ := encode_high (Nat.le_of_not_lt hc)
      have hne : String.utf8EncodeChar c ≠ [] := String.utf8EncodeChar_ne_nil
      refine iff_of_false ?_ ?_
      · intro h
        have hlast := h ((String.utf8EncodeChar c).getLast hne) (by
          rw [List.getLast?_append_of_ne_nil _ hne, List.getLast?_eq_some_getLast hne]
          rfl)
        exact absurd (hhigh _ (List.getLast_mem hne)) (UInt8.not_le.mpr hlast)
      · intro h
        have hl := congrArg List.length h
        rw [List.length_dropLast, List.length_append] at hl
        omega

end Halmasuit.Lib.Utf8
