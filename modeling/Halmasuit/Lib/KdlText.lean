import Halmasuit.Lib.Nesting

/-!
# The text of KDL documents

What the characters of a text stand for in version 2 of the language: nodes, strings of the four
kinds, and comments. A brace opens or closes a block where it stands among the nodes, and `reader`
sees those.

The text is taken as it is, whether or not it is a document: an end of a string or of a comment that
is missing is one that has not come yet. A line break in a quoted string of one line, which the
language forbids, leaves the string open; a parser stops at it.
-/

namespace Halmasuit.Lib.KdlText

open Nesting

/-- `"`. -/
def dquote : Char := '\x22'

/-- `\`. -/
def backslash : Char := '\x5c'

/-- The characters that end a line. -/
def isNewline (x : Char) : Bool :=
  decide (x.toNat ∈ [0x0a, 0x0b, 0x0c, 0x0d, 0x85, 0x2028, 0x2029])

/-- Where a character stands. -/
inductive Context where
  /-- Among the nodes. -/
  | nodes
  /-- Among the nodes, behind a slash. -/
  | slash
  /-- Among the nodes, behind `n` number signs. -/
  | signs (n : Nat)
  /-- Behind the quote that opens a string. -/
  | opened
  /-- Behind the two quotes of an empty string, which a third makes those of a multi-line string. -/
  | empty
  /-- In a quoted string. -/
  | quoted (escaped : Bool)
  /-- In a multi-line string, behind so many quotes. -/
  | multiline (quotes : Nat) (escaped : Bool)
  /-- Behind the quote that opens a raw string of `n` number signs. -/
  | rawOpened (n : Nat)
  /-- Behind two quotes that open a raw string: the second is its first character or its end, or a
  third makes them those of a multi-line string. -/
  | rawEmpty (n : Nat)
  /-- In a raw string that ends with `need` quotes and `n` number signs, behind so many of them. -/
  | raw (n need quotes signs : Nat)
  /-- In a comment up to the end of the line. -/
  | lineComment
  /-- In a comment inside of `depth` others, behind a character. A blank stands for the delimiters. -/
  | blockComment (depth : Nat) (last : Char)
  deriving DecidableEq

def nextNodes (x : Char) : Context :=
  if x = dquote then .opened
  else if x = '#' then .signs 1
  else if x = '/' then .slash
  else .nodes

def nextQuoted (escaped : Bool) (x : Char) : Context :=
  if escaped = true then .quoted false
  else if x = backslash then .quoted true
  else if x = dquote then .nodes
  else .quoted false

def nextMultiline (quotes : Nat) (escaped : Bool) (x : Char) : Context :=
  if escaped = true then .multiline 0 false
  else if x = backslash then .multiline 0 true
  else if x = dquote then
    if quotes = 2 then .nodes else .multiline (quotes + 1) false
  else .multiline 0 false

def nextRaw (n need quotes signs : Nat) (x : Char) : Context :=
  if x = dquote then
    -- Of more quotes than are needed, the last ones count.
    .raw n need (if signs = 0 then min need (quotes + 1) else 1) 0
  else if x = '#' ∧ quotes = need then
    if signs + 1 = n then .nodes else .raw n need quotes (signs + 1)
  else .raw n need 0 0

def nextBlockComment (depth : Nat) (last x : Char) : Context :=
  if last = '*' ∧ x = '/' then
    if depth = 0 then .nodes else .blockComment (depth - 1) ' '
  else if last = '/' ∧ x = '*' then .blockComment (depth + 1) ' '
  else .blockComment depth x

def next (s : Context) (x : Char) : Context :=
  match s with
  | .nodes => nextNodes x
  | .slash =>
    if x = '/' then .lineComment
    else if x = '*' then .blockComment 0 ' '
    else nextNodes x
  | .signs n =>
    if x = '#' then .signs (n + 1)
    else if x = dquote then .rawOpened n
    else nextNodes x
  | .opened => if x = dquote then .empty else nextQuoted false x
  | .empty => if x = dquote then .multiline 0 false else nextNodes x
  | .quoted escaped => nextQuoted escaped x
  | .multiline quotes escaped => nextMultiline quotes escaped x
  | .rawOpened n => if x = dquote then .rawEmpty n else nextRaw n 1 0 0 x
  | .rawEmpty n => if x = dquote then .raw n 3 0 0 else nextRaw n 1 1 0 x
  | .raw n need quotes signs => nextRaw n need quotes signs x
  | .lineComment => if isNewline x = true then .nodes else .lineComment
  | .blockComment depth last => nextBlockComment depth last x

/-- A brace belongs to a block. -/
def sees : Context → Bool
  | .nodes | .slash | .signs _ | .empty => true
  | _ => false

/-- The character belongs to a comment. -/
def isComment : Context → Bool
  | .lineComment | .blockComment _ _ => true
  | _ => false

theorem next_blockComment_opening (depth : Nat) (last : Char) :
    next (.blockComment depth last) '\x7b' = .blockComment depth '\x7b' := by
  have hslash : ¬ (last = '*' ∧ '\x7b' = '/') := by simp
  have hstar : ¬ (last = '/' ∧ '\x7b' = '*') := by simp
  rw [next, nextBlockComment, if_neg hslash, if_neg hstar]

/-- An opening brace is within what it stands in. -/
theorem next_opening (s : Context) :
    sees (next s '\x7b') = sees s ∧ isComment (next s '\x7b') = isComment s := by
  cases s with
  | nodes | slash | signs _ | opened | empty | rawOpened _ | rawEmpty _ | lineComment =>
    exact ⟨rfl, rfl⟩
  | quoted escaped => cases escaped <;> exact ⟨rfl, rfl⟩
  | multiline quotes escaped => cases escaped <;> exact ⟨rfl, rfl⟩
  | raw n need quotes signs => exact ⟨rfl, rfl⟩
  | blockComment depth last =>
    rw [next_blockComment_opening]
    exact ⟨rfl, rfl⟩

/-- The blocks of a text. -/
def reader : Reader '\x7b' '\x7d' Context where
  start := .nodes
  next := next
  sees := sees
  sees_opening s := (next_opening s).1

/-- The braces outside of strings: those of the blocks, and those in comments. -/
def bare : Reader '\x7b' '\x7d' Context where
  start := .nodes
  next := next
  sees s := sees s || isComment s
  sees_opening s := by rw [(next_opening s).1, (next_opening s).2]

/-- The deepest nesting of blocks in a text. -/
def blockDepth (t : List Char) : Nat := (reader.run t).peak

end Halmasuit.Lib.KdlText
