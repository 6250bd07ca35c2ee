import Mathlib.Data.List.Basic
import Mathlib.Data.Nat.Digits.Defs

/-!
# Compact JSON as bytes

The compact form a JSON serialiser writes for strings, integers, `null`, arrays and objects,
with the string escapes a byte at a time, and a reader of exactly that form. Two facts carry
what the users of this module prove:

- `length_escape_le`: escaping expands a string at most sixfold, so a bound on a text is a
  bound on the message that carries it;
- `readString_string`, `readInt_int`, `readArray_array`, `field_member`: the reader takes back what
  the writer wrote and leaves the bytes behind it, the round trip of a tagged message field by
  field.

The reader accepts one layout per value (no blanks, members in the order asked for). A general
JSON reader accepts more texts; on the texts written here it gives the same values.
-/

namespace Halmasuit.Lib.Json

/-! ## Text and its UTF-8 bytes -/

/-- The UTF-8 bytes of a text. -/
def utf8 (s : String) : List UInt8 := s.toByteArray.data.toList

/-- The text with these UTF-8 bytes, `none` where they are not valid UTF-8. -/
def ofUtf8 (bs : List UInt8) : Option String := String.fromUTF8? ⟨bs.toArray⟩

@[simp] theorem ofUtf8_utf8 (s : String) : ofUtf8 (utf8 s) = some s := by
  rw [ofUtf8, utf8, Array.toArray_toList, String.fromUTF8?]
  exact dif_pos s.isValidUTF8

theorem utf8_append (s t : String) : utf8 (s ++ t) = utf8 s ++ utf8 t := by
  simp [utf8, String.toByteArray_append]

theorem utf8_ofList (cs : List Char) :
    utf8 (String.ofList cs) = cs.flatMap String.utf8EncodeChar := by
  simp [utf8, String.toByteArray_ofList, List.utf8Encode]

/-! ## The writer -/

/-- A nibble as a lower-case hexadecimal digit. -/
def hexDigit (n : UInt8) : UInt8 := if n < 10 then 48 + n else 87 + n

/-- How one byte of a string is written: the quote, the backslash and the five control bytes
with a letter of their own take two bytes, every other control byte is written `\u00xx`, and
the rest (UTF-8 continuation bytes included) stands for itself. -/
def escapeByte (b : UInt8) : List UInt8 :=
  if b = 0x22 then [0x5c, 0x22]
  else if b = 0x5c then [0x5c, 0x5c]
  else if b = 0x08 then [0x5c, 0x62]
  else if b = 0x09 then [0x5c, 0x74]
  else if b = 0x0a then [0x5c, 0x6e]
  else if b = 0x0c then [0x5c, 0x66]
  else if b = 0x0d then [0x5c, 0x72]
  else if b < 0x20 then [0x5c, 0x75, 0x30, 0x30, hexDigit (b / 16), hexDigit (b % 16)]
  else [b]

/-- The bytes between the quotes. -/
def escape (bs : List UInt8) : List UInt8 := bs.flatMap escapeByte

/-- A JSON string. -/
def string (s : String) : List UInt8 := 0x22 :: (escape (utf8 s) ++ [0x22])

/-- The JSON `null`. -/
def null : List UInt8 := [0x6e, 0x75, 0x6c, 0x6c]

/-- A JSON integer, in decimal. -/
def int (n : Int) : List UInt8 := utf8 (toString n)

/-- Values separated by commas. -/
def commaSep : List (List UInt8) → List UInt8
  | [] => []
  | [v] => v
  | v :: vs => v ++ 0x2c :: commaSep vs

/-- A JSON array of values already written. -/
def array (vs : List (List UInt8)) : List UInt8 := 0x5b :: (commaSep vs ++ [0x5d])

/-- One member of an object, its value already written. -/
def member (k : String) (v : List UInt8) : List UInt8 := string k ++ 0x3a :: v

/-- A JSON object of members in the order given. -/
def object (ms : List (String × List UInt8)) : List UInt8 :=
  0x7b :: (commaSep (ms.map fun m => member m.1 m.2) ++ [0x7d])

theorem length_escapeByte_le (b : UInt8) : (escapeByte b).length ≤ 6 := by
  unfold escapeByte
  split_ifs <;> simp

theorem length_escape_le : ∀ bs : List UInt8, (escape bs).length ≤ 6 * bs.length
  | [] => by simp [escape]
  | b :: bs => by
    have hb := length_escapeByte_le b
    have ih := length_escape_le bs
    simp only [escape, List.flatMap_cons, List.length_append, List.length_cons] at ih ⊢
    omega

theorem length_string (s : String) : (string s).length = (escape (utf8 s)).length + 2 := by
  simp [string]

/-! ## The reader -/

/-- A reader consumes bytes from the front, or refuses. -/
abbrev Reader (α : Type) : Type := List UInt8 → Option (α × List UInt8)

/-- Consume exactly these bytes. -/
def lit : List UInt8 → Reader Unit
  | [], bs => some ((), bs)
  | _ :: _, [] => none
  | e :: es, b :: bs => if e = b then lit es bs else none

theorem lit_append (es bs : List UInt8) : lit es (es ++ bs) = some ((), bs) := by
  induction es with
  | nil => rfl
  | cons e es ih => simp [lit, ih]

/-- The value of a lower-case hexadecimal digit. -/
def unhex (b : UInt8) : UInt8 := if b < 58 then b - 48 else b - 87

/-- The byte a two-byte escape stands for. -/
def unescape (c : UInt8) : Option UInt8 :=
  if c = 0x22 then some 0x22
  else if c = 0x5c then some 0x5c
  else if c = 0x62 then some 0x08
  else if c = 0x74 then some 0x09
  else if c = 0x6e then some 0x0a
  else if c = 0x66 then some 0x0c
  else if c = 0x72 then some 0x0d
  else none

/-- The bytes up to the closing quote, escapes resolved, and what follows the quote. -/
def readChars : Reader (List UInt8)
  | [] => none
  | b :: rest =>
    if b = 0x22 then some ([], rest)
    else if b = 0x5c then
      match rest with
      | 0x75 :: 0x30 :: 0x30 :: h :: l :: rest' =>
        (readChars rest').map fun r => ((unhex h * 16 + unhex l) :: r.1, r.2)
      | c :: rest' =>
        match unescape c with
        | some e => (readChars rest').map fun r => (e :: r.1, r.2)
        | none => none
      | [] => none
    else (readChars rest).map fun r => (b :: r.1, r.2)

/-- A JSON string. -/
def readString : Reader String := fun bs =>
  match lit [0x22] bs with
  | none => none
  | some ((), bs) =>
    match readChars bs with
    | none => none
    | some (cs, rest) => (ofUtf8 cs).map fun s => (s, rest)

/-- The items of an array after its opening bracket, at most `fuel` of them. -/
def readItems {α : Type} (p : Reader α) : Nat → Reader (List α)
  | 0, _ => none
  | fuel + 1, bs =>
    match p bs with
    | some (a, 0x2c :: rest) => (readItems p fuel rest).map fun r => (a :: r.1, r.2)
    | some (a, 0x5d :: rest) => some ([a], rest)
    | _ => none

/-- A JSON array. -/
def readArray {α : Type} (p : Reader α) : Reader (List α) := fun bs =>
  match bs with
  | 0x5b :: 0x5d :: rest => some ([], rest)
  | 0x5b :: rest => readItems p rest.length rest
  | _ => none

/-- The next member of an object: its separator, its key and the value `p` reads. -/
def field {α : Type} (sep : UInt8) (k : String) (p : Reader α) : Reader α := fun bs =>
  match lit (sep :: (string k ++ [0x3a])) bs with
  | none => none
  | some ((), bs) => p bs

/-! ## Round trips -/

theorem unhex_hexDigit : ∀ n : Nat, n < 32 →
    unhex (hexDigit (UInt8.ofNat n / 16)) * 16 + unhex (hexDigit (UInt8.ofNat n % 16))
      = UInt8.ofNat n := by
  decide

theorem readChars_escapeByte (b : UInt8) (rest : List UInt8) :
    readChars (escapeByte b ++ rest) = (readChars rest).map fun r => (b :: r.1, r.2) := by
  unfold escapeByte
  split_ifs with h1 h2 h3 h4 h5 h6 h7 h8
  all_goals try subst b
  all_goals try (simp [readChars, unescape]; done)
  · -- a control byte without a letter of its own
    have hn : b.toNat < 32 := h8
    have h := unhex_hexDigit b.toNat hn
    rw [UInt8.ofNat_toNat] at h
    simp [readChars, h]
  · rw [List.singleton_append, readChars.eq_def]
    simp [h1, h2]

theorem readChars_escape : ∀ (bs rest : List UInt8),
    readChars (escape bs ++ 0x22 :: rest) = some (bs, rest)
  | [], rest => by
    rw [escape, List.flatMap_nil, List.nil_append, readChars.eq_def]
    rfl
  | b :: bs, rest => by
    have ih := readChars_escape bs rest
    rw [escape] at ih
    rw [escape, List.flatMap_cons, List.append_assoc, readChars_escapeByte, ih]
    rfl

theorem readString_string (s : String) (rest : List UInt8) :
    readString (string s ++ rest) = some (s, rest) := by
  simp [readString, string, lit, readChars_escape]

theorem field_member {α : Type} (sep : UInt8) (k : String) (v : List UInt8) (p : Reader α) (a : α)
    (rest : List UInt8) (h : p (v ++ rest) = some (a, rest)) :
    field sep k p (sep :: (member k v ++ rest)) = some (a, rest) := by
  have hl := lit_append (sep :: (string k ++ [0x3a])) (v ++ rest)
  simp only [List.cons_append, List.append_assoc, List.nil_append] at hl
  simp only [field, member, List.append_assoc, List.cons_append, hl, h]

theorem readItems_commaSep {α : Type} {p : Reader α} {w : α → List UInt8}
    (hp : ∀ a rest, p (w a ++ rest) = some (a, rest)) :
    ∀ (a : α) (as : List α) (rest : List UInt8) (fuel : Nat), as.length < fuel →
      readItems p fuel (commaSep ((a :: as).map w) ++ 0x5d :: rest) = some (a :: as, rest)
  | a, [], rest, fuel + 1, _ => by simp [readItems, commaSep, hp]
  | a, a' :: as, rest, fuel + 1, h => by
    have ih := readItems_commaSep hp a' as rest fuel (by simpa using h)
    simp only [List.map_cons, commaSep, List.append_assoc, List.cons_append, readItems, hp]
      at ih ⊢
    rw [ih]
    rfl

theorem length_lt_commaSep : ∀ (vs : List (List UInt8)), (∀ v ∈ vs, v ≠ []) →
    vs.length ≤ (commaSep vs).length
  | [], _ => by simp
  | [v], h => by
    have hv : v ≠ [] := h v (by simp)
    simpa [commaSep, Nat.succ_le_iff, List.length_pos_iff] using hv
  | v :: v' :: vs, h => by
    have ih := length_lt_commaSep (v' :: vs) fun u hu => h u (List.mem_cons_of_mem v hu)
    simp only [commaSep, List.length_append, List.length_cons] at ih ⊢
    omega

/-- An array of values that each start with a byte other than the closing bracket reads back. -/
theorem readArray_array {α : Type} {p : Reader α} {w : α → List UInt8}
    (hp : ∀ a rest, p (w a ++ rest) = some (a, rest))
    (hw : ∀ a, ∃ b tl, w a = b :: tl ∧ b ≠ 0x5d) (as : List α) (rest : List UInt8) :
    readArray p (array (as.map w) ++ rest) = some (as, rest) := by
  cases as with
  | nil => simp [readArray, array, commaSep]
  | cons a as =>
    have hne : ∀ v ∈ (a :: as).map w, v ≠ [] := by
      intro v hv
      obtain ⟨x, -, rfl⟩ := List.mem_map.mp hv
      obtain ⟨b, tl, h, -⟩ := hw x
      simp [h]
    have hlen := length_lt_commaSep _ hne
    have hread := readItems_commaSep hp a as rest
      (commaSep ((a :: as).map w) ++ 0x5d :: rest).length (by
        simp only [List.length_map, List.length_cons, List.length_append] at hlen ⊢
        omega)
    obtain ⟨b, tl, hb, hne'⟩ := hw a
    -- the first item is not the closing bracket, so the non-empty branch is taken
    have hhead : ∃ tl', commaSep ((a :: as).map w) ++ 0x5d :: rest = b :: tl' := by
      cases as with
      | nil => exact ⟨tl ++ 0x5d :: rest, by simp [commaSep, hb]⟩
      | cons a' as => exact ⟨_, by simp only [List.map_cons, commaSep, hb, List.cons_append]; rfl⟩
    obtain ⟨tl', htl⟩ := hhead
    have harr : array ((a :: as).map w) ++ rest = 0x5b :: b :: tl' := by
      rw [← htl]; simp [array]
    rw [harr]
    rw [htl] at hread
    simp only [readArray]
    split
    · rename_i heq; simp at heq; exact absurd heq.1 hne'
    · rename_i heq; simp at heq; subst heq; exact hread
    · rename_i hno; exact absurd rfl (hno _)

/-! ## Integers -/

/-- An ASCII digit. -/
def isDigitByte (b : UInt8) : Bool := 48 ≤ b && b ≤ 57

/-- A decimal number, its digits taken as far as they go. -/
def readNat : Reader Nat := fun bs =>
  match bs.takeWhile isDigitByte with
  | [] => none
  | d :: ds => some ((d :: ds).foldl (fun n b => 10 * n + (b.toNat - 48)) 0,
      bs.dropWhile isDigitByte)

/-- A decimal integer. -/
def readInt : Reader Int
  | 0x2d :: bs => (readNat bs).map fun r => (-(r.1 : Int), r.2)
  | bs => (readNat bs).map fun r => ((r.1 : Int), r.2)

/-- The byte of an ASCII digit. -/
theorem utf8EncodeChar_digit {c : Char} (h : c.isDigit = true) :
    String.utf8EncodeChar c = [UInt8.ofNat c.toNat] := by
  have hle : c.val.toNat ≤ 0x7f := by
    simp only [Char.isDigit, Bool.and_eq_true, decide_eq_true_eq] at h
    have h2 : c.val.toNat ≤ 57 := h.2
    omega
  have hsize : c.utf8Size = 1 := by
    rw [Char.utf8Size, if_pos (UInt32.le_iff_toNat_le.mpr hle)]
  rw [String.utf8EncodeChar_eq_singleton hsize]
  rfl

theorem utf8_repr (n : Nat) :
    utf8 n.repr = (Nat.toDigits 10 n).map fun c => UInt8.ofNat c.toNat := by
  rw [Nat.repr_eq_ofList_toDigits, utf8_ofList]
  have hdig : ∀ c ∈ Nat.toDigits 10 n, c.isDigit = true := fun c hc =>
    Nat.isDigit_of_mem_toDigits (by omega) (by omega) hc
  generalize Nat.toDigits 10 n = cs at hdig
  induction cs with
  | nil => rfl
  | cons c cs ih =>
    rw [List.flatMap_cons, utf8EncodeChar_digit (hdig c (by simp)),
      ih fun c' hc' => hdig c' (by simp [hc'])]
    rfl

/-- An integer of at most `k` digits is written with at most `k + 1` bytes. -/
theorem length_int_le (i : Int) {k : Nat} (hk : 0 < k) (h : i.natAbs < 10 ^ k) :
    (int i).length ≤ k + 1 := by
  have hdigits : ∀ n : Nat, n < 10 ^ k → (utf8 n.repr).length ≤ k := by
    intro n hn
    rw [utf8_repr, List.length_map]
    exact Nat.toDigits_length 10 n k hk hn
  cases i with
  | ofNat n => exact Nat.le_succ_of_le (hdigits n h)
  | negSucc n =>
    have hneg : int (Int.negSucc n) = utf8 "-" ++ utf8 (n + 1).repr := utf8_append _ _
    rw [hneg, List.length_append, Nat.add_comm]
    exact Nat.add_le_add_right (hdigits (n + 1) h) 1

theorem isDigitByte_digit {c : Char} (h : c.isDigit = true) :
    isDigitByte (UInt8.ofNat c.toNat) = true ∧ (UInt8.ofNat c.toNat).toNat = c.toNat := by
  simp only [Char.isDigit, Bool.and_eq_true, decide_eq_true_eq] at h
  have h1 : 48 ≤ c.toNat := h.1
  have h2 : c.toNat ≤ 57 := h.2
  have hn : (UInt8.ofNat c.toNat).toNat = c.toNat := by
    rw [UInt8.toNat_ofNat']
    omega
  refine ⟨?_, hn⟩
  simp only [isDigitByte, Bool.and_eq_true, decide_eq_true_eq, UInt8.le_iff_toNat_le, hn]
  exact ⟨h1, h2⟩

/-- The next byte, if there is one, is not a digit. -/
def NoDigit (bs : List UInt8) : Prop := ∀ b tl, bs = b :: tl → isDigitByte b = false

theorem noDigit_cons {b : UInt8} (tl : List UInt8) (h : isDigitByte b = false) :
    NoDigit (b :: tl) := by
  rintro b' tl' heq
  cases heq
  exact h

theorem takeWhile_append_noDigit {ds rest : List UInt8} (hd : ∀ b ∈ ds, isDigitByte b = true)
    (hr : NoDigit rest) :
    (ds ++ rest).takeWhile isDigitByte = ds ∧ (ds ++ rest).dropWhile isDigitByte = rest := by
  have hrest : rest.takeWhile isDigitByte = [] ∧ rest.dropWhile isDigitByte = rest := by
    cases rest with
    | nil => exact ⟨rfl, rfl⟩
    | cons b tl => simp [hr b tl rfl]
  rw [List.takeWhile_append_of_pos hd, List.dropWhile_append_of_pos hd, hrest.1, hrest.2]
  exact ⟨List.append_nil _, rfl⟩

theorem readNat_repr (n : Nat) {rest : List UInt8} (hr : NoDigit rest) :
    readNat (utf8 n.repr ++ rest) = some (n, rest) := by
  have hdig : ∀ c ∈ Nat.toDigits 10 n, c.isDigit = true := fun c hc =>
    Nat.isDigit_of_mem_toDigits (by omega) (by omega) hc
  have hall : ∀ b ∈ utf8 n.repr, isDigitByte b = true := by
    rw [utf8_repr]
    intro b hb
    obtain ⟨c, hc, rfl⟩ := List.mem_map.mp hb
    exact (isDigitByte_digit (hdig c hc)).1
  obtain ⟨htake, hdrop⟩ := takeWhile_append_noDigit hall hr
  have hval : (utf8 n.repr).foldl (fun n b => 10 * n + (b.toNat - 48)) 0 = n := by
    rw [utf8_repr, List.foldl_map]
    calc (Nat.toDigits 10 n).foldl (fun n c => 10 * n + ((UInt8.ofNat c.toNat).toNat - 48)) 0
        = (Nat.toDigits 10 n).foldl (fun n c => 10 * n + (c.toNat - 48)) 0 := by
          refine List.foldl_ext _ _ _ fun a c hc => ?_
          rw [(isDigitByte_digit (hdig c hc)).2]
      _ = Nat.ofDigitChars 10 (Nat.toDigits 10 n) 0 := by rw [Nat.ofDigitChars_eq_foldl]; rfl
      _ = n := Nat.ofDigitChars_ten_toDigits
  unfold readNat
  rw [htake, hdrop]
  cases hds : utf8 n.repr with
  | nil =>
    rw [utf8_repr, List.map_eq_nil_iff] at hds
    exact absurd hds Nat.toDigits_ne_nil
  | cons d ds => simp only [← hds, hval]

theorem readInt_int (n : Int) {rest : List UInt8} (hr : NoDigit rest) :
    readInt (int n ++ rest) = some (n, rest) := by
  cases n with
  | ofNat n =>
    have hint : int (Int.ofNat n) = utf8 n.repr := rfl
    obtain ⟨d, ds, hds⟩ : ∃ d ds, utf8 n.repr = d :: ds := by
      cases h : utf8 n.repr with
      | nil =>
        rw [utf8_repr, List.map_eq_nil_iff] at h
        exact absurd h Nat.toDigits_ne_nil
      | cons d ds => exact ⟨d, ds, rfl⟩
    have hne : d ≠ 0x2d := by
      rintro rfl
      have hmem : (0x2d : UInt8) ∈ utf8 n.repr := by simp [hds]
      rw [utf8_repr] at hmem
      obtain ⟨c, hc, heq⟩ := List.mem_map.mp hmem
      have := (isDigitByte_digit (Nat.isDigit_of_mem_toDigits (by omega) (by omega) hc)).1
      simp [heq, isDigitByte] at this
    have h := readNat_repr n hr
    rw [hint, hds, List.cons_append] at *
    rw [readInt]
    · rw [h]
      rfl
    · exact fun bs heq => hne (List.cons.inj heq).1
  | negSucc n =>
    have hint : int (Int.negSucc n) = 0x2d :: utf8 (n + 1).repr := by
      have : toString (Int.negSucc n) = "-" ++ (n + 1).repr := rfl
      rw [int, this, utf8_append]
      rfl
    rw [hint, List.cons_append, readInt, readNat_repr (n + 1) hr]
    rfl

end Halmasuit.Lib.Json
