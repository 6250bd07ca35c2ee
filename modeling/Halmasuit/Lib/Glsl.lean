import Mathlib.Data.List.Infix

/-!
# The preprocessor of GLSL ES 1.00

A shader text is cut into words, symbols and ends of lines; a comment stands for a blank. A line
that starts with `#` is a directive. The lines of a conditional group that is not taken are skipped
(`activeLines`). What the conditions evaluate to and what the macros stand for is a `Preprocessor`.

- `infix_of_mem_lex`: a word stands in the text as it is;
- `lex_line`, `lines_line`: a line without a comment is read by itself;
- `Calls`, `Enables`: a call in what is left for the compiler, and an `#extension` directive where
  it has to stand;
- `infix_of_calls`, `enables_cons`, `not_enables_of_text`: what decides them.
-/

namespace Halmasuit.Lib.Glsl

/-! ## Tokens -/

inductive Token where
  | word (w : List Char)
  | symbol (c : Char)
  | newline
  deriving DecidableEq, Repr

def isWordChar (c : Char) : Bool := c.isAlphanum || c == '_'

def isNewline (c : Char) : Bool := c == '\n' || c == '\r'

def isBlank (c : Char) : Bool := c == ' ' || c == '\t' || c.toNat == 0xb || c.toNat == 0xc

/-- Where the scanner is: in code, behind a word and maybe a slash, or in a comment. -/
inductive Mode where
  | code (w : List Char)
  | slash (w : List Char)
  | line
  | block
  | star
  deriving DecidableEq, Repr

/-- The word that ends. -/
def flush (w : List Char) : List Token := if w.isEmpty then [] else [.word w]

/-- A character of code that is no slash. -/
def plain (w : List Char) (c : Char) : List Token × Mode :=
  if isWordChar c then ([], .code (w ++ [c]))
  else if isNewline c then (flush w ++ [.newline], .code [])
  else if isBlank c then (flush w, .code [])
  else (flush w ++ [.symbol c], .code [])

def step : Mode → Char → List Token × Mode
  | .code w, c => if c = '/' then ([], .slash w) else plain w c
  | .slash w, c =>
    if c = '/' then (flush w, .line)
    else if c = '*' then (flush w, .block)
    else (flush w ++ .symbol '/' :: (plain [] c).1, (plain [] c).2)
  | .line, c => if isNewline c then ([.newline], .code []) else ([], .line)
  | .block, c => if c = '*' then ([], .star) else ([], .block)
  | .star, c => if c = '/' then ([], .code []) else if c = '*' then ([], .star) else ([], .block)

/-- The end of the text. A comment ends with it. -/
def finish : Mode → List Token
  | .code w => flush w
  | .slash w => flush w ++ [.symbol '/']
  | _ => []

def lexFrom : Mode → List Char → List Token
  | m, [] => finish m
  | m, c :: cs => (step m c).1 ++ lexFrom (step m c).2 cs

def lex (t : List Char) : List Token := lexFrom (.code []) t

/-- A line, without its end. -/
abbrev Line : Type := List Token

def lines (t : List Char) : List Line := (lex t).splitOn .newline

/-- The text that is not a token yet. -/
def Mode.held : Mode → List Char
  | .code w => w
  | .slash w => w ++ ['/']
  | _ => []

theorem eq_of_mem_flush {v w : List Char} (h : .word v ∈ flush w) : v = w := by
  unfold flush at h
  split at h
  · cases h
  · simpa using h

theorem plain_spec (w : List Char) (c : Char) :
    (∀ v, .word v ∈ (plain w c).1 → v = w) ∧ (plain w c).2.held <:+ w ++ [c] := by
  unfold plain
  by_cases hw : isWordChar c = true
  · rw [if_pos hw]
    exact ⟨by simp, List.suffix_refl _⟩
  rw [if_neg hw]
  by_cases hn : isNewline c = true
  · rw [if_pos hn]
    refine ⟨fun v hv => eq_of_mem_flush ?_, List.nil_suffix⟩
    simpa using hv
  rw [if_neg hn]
  by_cases hb : isBlank c = true
  · rw [if_pos hb]
    exact ⟨fun v hv => eq_of_mem_flush hv, List.nil_suffix⟩
  · rw [if_neg hb]
    refine ⟨fun v hv => eq_of_mem_flush ?_, List.nil_suffix⟩
    simpa using hv

/-- One character: a word that ends was held, and what is held then was held or is the character. -/
theorem step_spec (m : Mode) (c : Char) :
    (∀ v, .word v ∈ (step m c).1 → v <:+: m.held) ∧ (step m c).2.held <:+ m.held ++ [c] := by
  cases m with
  | code w =>
    rw [step]
    by_cases hc : c = '/'
    · rw [if_pos hc, hc]
      exact ⟨by simp, List.suffix_refl _⟩
    · rw [if_neg hc]
      refine ⟨fun v hv => ?_, (plain_spec w c).2⟩
      rw [(plain_spec w c).1 v hv]
      exact List.infix_refl w
  | slash w =>
    have hflush (v : List Char) (hv : .word v ∈ flush w) : v <:+: w ++ ['/'] := by
      rw [eq_of_mem_flush hv]
      exact (List.prefix_append w _).isInfix
    rw [step]
    by_cases hc : c = '/'
    · rw [if_pos hc]
      exact ⟨hflush, List.nil_suffix⟩
    rw [if_neg hc]
    by_cases hs : c = '*'
    · rw [if_pos hs]
      exact ⟨hflush, List.nil_suffix⟩
    · rw [if_neg hs]
      refine ⟨fun v hv => ?_, (plain_spec [] c).2.trans (List.suffix_append _ _)⟩
      rcases List.mem_append.mp hv with hv | hv
      · exact hflush v hv
      · rcases List.mem_cons.mp hv with hv | hv
        · cases hv
        · rw [(plain_spec [] c).1 v hv]
          exact List.nil_infix
  | line =>
    rw [step]
    split
    · exact ⟨by simp, List.nil_suffix⟩
    · exact ⟨by simp, List.nil_suffix⟩
  | block =>
    rw [step]
    split
    · exact ⟨by simp, List.nil_suffix⟩
    · exact ⟨by simp, List.nil_suffix⟩
  | star =>
    rw [step]
    split
    · exact ⟨by simp, List.nil_suffix⟩
    · split
      · exact ⟨by simp, List.nil_suffix⟩
      · exact ⟨by simp, List.nil_suffix⟩

theorem infix_of_mem_lexFrom {m : Mode} {v cs : List Char} (h : .word v ∈ lexFrom m cs) :
    v <:+: m.held ++ cs := by
  induction cs generalizing m with
  | nil =>
    rw [List.append_nil]
    cases m with
    | code w =>
      rw [eq_of_mem_flush h]
      exact List.infix_refl w
    | slash w =>
      have hv : .word v ∈ flush w := by simpa [lexFrom, finish] using h
      rw [eq_of_mem_flush hv]
      exact (List.prefix_append w _).isInfix
    | line => cases h
    | block => cases h
    | star => cases h
  | cons c cs ih =>
    obtain ⟨hword, hheld⟩ := step_spec m c
    rcases List.mem_append.mp h with h | h
    · exact (hword v h).trans (List.prefix_append _ _).isInfix
    · obtain ⟨pre, hpre⟩ := hheld
      refine (ih h).trans ⟨pre, [], ?_⟩
      rw [List.append_nil, ← List.append_assoc, hpre, List.append_assoc, List.singleton_append]

/-- A word stands in the text as it is. -/
theorem infix_of_mem_lex {v t : List Char} (h : .word v ∈ lex t) : v <:+: t :=
  infix_of_mem_lexFrom h

theorem step_code {w : List Char} {c : Char} (h : c ≠ '/') : ∃ w', step (.code w) c =
    ((plain w c).1, .code w') := by
  rw [step, if_neg h]
  unfold plain
  split
  · exact ⟨_, rfl⟩
  · split
    · exact ⟨_, rfl⟩
    · split <;> exact ⟨_, rfl⟩

/-- A text without a slash is read by itself when its last line ends. -/
theorem lexFrom_line {w t rest : List Char} (h : '/' ∉ t) :
    lexFrom (.code w) (t ++ '\n' :: rest)
      = lexFrom (.code w) t ++ Token.newline :: lexFrom (.code []) rest := by
  induction t generalizing w with
  | nil =>
    have hstep : step (.code w) '\n' = (flush w ++ [Token.newline], .code []) := by
      rw [step, if_neg (by decide)]
      rfl
    rw [List.nil_append, lexFrom.eq_2, hstep, List.append_assoc, List.singleton_append]
    rfl
  | cons c t ih =>
    obtain ⟨hc, ht⟩ := List.ne_and_not_mem_of_not_mem_cons h
    obtain ⟨w', hstep⟩ := step_code (w := w) hc.symm
    rw [List.cons_append, lexFrom, hstep, ih ht, lexFrom, hstep, List.append_assoc]

theorem lines_line {t rest : List Char} (h : '/' ∉ t) (hn : .newline ∉ lex t) :
    lines (t ++ '\n' :: rest) = lex t :: lines rest := by
  have hlex : lex (t ++ '\n' :: rest) = lex t ++ .newline :: lex rest := lexFrom_line h
  unfold lines
  rw [hlex, List.splitOn_append_cons_self_of_not_mem hn]

theorem mem_of_mem_splitOn {α : Type} [BEq α] {a x : α} {xs l : List α} (hl : l ∈ xs.splitOn a)
    (hx : x ∈ l) : x ∈ xs := by
  induction xs generalizing l with
  | nil =>
    rw [List.splitOn_nil, List.mem_singleton] at hl
    rwa [hl] at hx
  | cons y xs ih =>
    rw [List.splitOn_cons_eq_if_modifyHead] at hl
    split at hl
    · rcases List.mem_cons.mp hl with rfl | hl
      · cases hx
      · exact List.mem_cons_of_mem y (ih hl hx)
    · cases hs : xs.splitOn a with
      | nil => exact absurd hs (List.splitOn_ne_nil a xs)
      | cons l' ls =>
        rw [hs, List.modifyHead_cons] at hl
        rcases List.mem_cons.mp hl with rfl | hl
        · rcases List.mem_cons.mp hx with rfl | hx
          · exact List.mem_cons_self
          · exact List.mem_cons_of_mem y (ih (hs ▸ List.mem_cons_self) hx)
        · exact List.mem_cons_of_mem y (ih (hs ▸ List.mem_cons_of_mem l' hl) hx)

theorem mem_lex_of_mem_lines {x : Token} {l : Line} {t : List Char} (hl : l ∈ lines t)
    (hx : x ∈ l) : x ∈ lex t := mem_of_mem_splitOn hl hx

/-! ## Directives -/

/-- What a line does to the conditional groups. -/
inductive Kind where
  | opens
  | elseIf
  | otherwise
  | closes
  | other
  deriving DecidableEq, Repr

/-- The line after its number sign. -/
def directive? : Line → Option Line
  | .symbol c :: l => if c = '#' then some l else none
  | _ => none

def kind (l : Line) : Kind :=
  match directive? l with
  | some (.word w :: _) =>
    if w = "if".toList ∨ w = "ifdef".toList ∨ w = "ifndef".toList then .opens
    else if w = "elif".toList then .elseIf
    else if w = "else".toList then .otherwise
    else if w = "endif".toList then .closes
    else .other
  | _ => .other

/-- A conditional group: whether its lines are taken, and whether no other branch can be. -/
structure Branch where
  live : Bool
  done : Bool
  deriving DecidableEq, Repr

/-- What a driver's preprocessor knows: the value of a condition and the tokens that lines stand
for, by the lines that were taken. An identifier that comes out of macros stands in a line. -/
structure Preprocessor where
  holds : List Line → Line → Bool
  expand : List Line → List Token
  names : ∀ ls w, (∀ c ∈ w.head?, c.isDigit = false) → .word w ∈ expand ls →
    ∃ l ∈ ls, .word w ∈ l

namespace Preprocessor
variable (pp : Preprocessor)

def live (stack : List Branch) : Bool := stack.all Branch.live

/-- The groups after a line. -/
def next (taken : List Line) (stack : List Branch) (l : Line) : List Branch :=
  match kind l, stack with
  | .opens, _ =>
    if live stack then ⟨pp.holds taken l, pp.holds taken l⟩ :: stack else ⟨false, true⟩ :: stack
  | .elseIf, g :: stack =>
    if g.done then ⟨false, true⟩ :: stack
    else ⟨pp.holds taken l, pp.holds taken l⟩ :: stack
  | .otherwise, g :: stack => ⟨!g.done, true⟩ :: stack
  | .closes, _ :: stack => stack
  | _, stack => stack

/-- The lines that are taken, behind those that were. -/
def takenFrom (taken : List Line) (stack : List Branch) : List Line → List Line
  | [] => []
  | l :: ls =>
    if kind l = .other ∧ live stack = true then l :: takenFrom (taken ++ [l]) stack ls
    else takenFrom taken (pp.next taken stack l) ls

/-- The lines that are not skipped. -/
def activeLines (t : List Char) : List Line := pp.takenFrom [] [] (lines t)

/-- A function of one of the names is called. -/
def Calls (names : List (List Char)) (t : List Char) : Prop :=
  ∃ n ∈ names, [.word n, .symbol '('] <:+: pp.expand (pp.activeLines t)

/-- A line that the compiler does not see. -/
def isPreliminary (l : Line) : Bool := l.isEmpty || (directive? l).isSome

/-- An `#extension` directive that turns the extension on. -/
def isEnabling (name : List Char) (l : Line) : Bool :=
  match directive? l with
  | some [.word e, .word n, .symbol c, .word b] =>
    e == "extension".toList && n == name && c == ':' &&
      ["enable".toList, "require".toList, "warn".toList].contains b
  | _ => false

/-- The extension is turned on before the first token that is not the preprocessor's. -/
def Enables (name t : List Char) : Prop :=
  ∃ l ∈ (pp.activeLines t).takeWhile isPreliminary, isEnabling name l = true

instance (names : List (List Char)) (t : List Char) : Decidable (pp.Calls names t) :=
  inferInstanceAs (Decidable (∃ n ∈ names, _))

instance (name t : List Char) : Decidable (pp.Enables name t) :=
  inferInstanceAs (Decidable (∃ l ∈ _, _))

variable {pp}

theorem mem_of_mem_takenFrom {taken ls : List Line} {stack : List Branch} {l : Line}
    (h : l ∈ pp.takenFrom taken stack ls) : l ∈ ls := by
  induction ls generalizing taken stack with
  | nil => cases h
  | cons l' ls ih =>
    unfold takenFrom at h
    split at h
    · rcases List.mem_cons.mp h with rfl | h
      · exact List.mem_cons_self
      · exact List.mem_cons_of_mem l' (ih h)
    · exact List.mem_cons_of_mem l' (ih h)

/-- What is called by a name has its name in the text. -/
theorem infix_of_calls {names : List (List Char)} {t : List Char}
    (hn : ∀ n ∈ names, ∀ c ∈ n.head?, c.isDigit = false) (h : pp.Calls names t) :
    ∃ n ∈ names, n <:+: t := by
  obtain ⟨n, hmem, hcall⟩ := h
  obtain ⟨l, hl, hw⟩ := pp.names _ n (hn n hmem) (hcall.subset List.mem_cons_self)
  exact ⟨n, hmem, infix_of_mem_lex (mem_lex_of_mem_lines (mem_of_mem_takenFrom hl) hw)⟩

/-- Lines that open no group are taken. -/
theorem takenFrom_append {taken pre ls : List Line} (h : ∀ l ∈ pre, kind l = .other) :
    pp.takenFrom taken [] (pre ++ ls) = pre ++ pp.takenFrom (taken ++ pre) [] ls := by
  induction pre generalizing taken with
  | nil => simp
  | cons l pre ih =>
    rw [List.forall_mem_cons] at h
    rw [List.cons_append, takenFrom, if_pos ⟨h.1, rfl⟩, ih h.2]
    simp

/-- A text that starts with the directive. -/
theorem enables_of_first {name t : List Char} {l : Line} {ls : List Line}
    (ht : lines t = l :: ls) (hl : kind l = .other) (hon : isEnabling name l = true) :
    pp.Enables name t := by
  have hpre : isPreliminary l = true := by
    unfold isEnabling at hon
    unfold isPreliminary
    cases hd : directive? l with
    | none => simp [hd] at hon
    | some d => simp
  refine ⟨l, ?_, hon⟩
  rw [activeLines, ht, takenFrom, if_pos ⟨hl, rfl⟩, List.takeWhile_cons_of_pos hpre]
  exact List.mem_cons_self

theorem takeWhile_append_stop {α : Type} {p : α → Bool} {pre ls : List α} {l : α}
    (h : p l = false) : (pre ++ l :: ls).takeWhile p = pre.takeWhile p := by
  induction pre with
  | nil => simp [h]
  | cons x pre ih =>
    rw [List.cons_append, List.takeWhile_cons, List.takeWhile_cons, ih]

/-- A text that has a token for the compiler before any directive. -/
theorem not_enables_of_text {name t : List Char} {pre ls : List Line} {l : Line}
    (ht : lines t = pre ++ l :: ls) (hpre : ∀ l ∈ pre, kind l = .other ∧ isEnabling name l = false)
    (hl : kind l = .other) (htext : isPreliminary l = false) : ¬ pp.Enables name t := by
  rintro ⟨l', hl', hon⟩
  rw [activeLines, ht, takenFrom_append fun l hl => (hpre l hl).1, takenFrom, if_pos ⟨hl, rfl⟩,
    takeWhile_append_stop htext] at hl'
  rw [(hpre l' ((List.takeWhile_prefix _).subset hl')).2] at hon
  cases hon

end Preprocessor

end Halmasuit.Lib.Glsl
