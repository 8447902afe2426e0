/-
  Lines and columns of a source text.

  `LineTable.build` records the byte offset at which every line starts.  A line is then found by
  BINARY SEARCH: the starts are strictly increasing and begin with `0`, so the 1-based number of
  the line that holds an offset is the number of starts at or before it.  Columns count characters
  from the start of the line, not bytes.

  Offsets, lines and columns are 32-bit numbers.  What is too large for one is cut off at the largest, but the
  number after the largest is `0` (`ordinal`): that is the line after 2^32 - 1 newlines, and the column after
  2^32 - 1 characters.
-/
import ValueShell.Text.Slice

namespace ValueShell

/-- A text together with the byte offsets of its line starts, ascending. -/
structure LineTable where
  text : List Char
  starts : Array Nat
deriving Inhabited

/-- The number, from 1 on, of what has `earlier` things before it, as a 32-bit number. -/
def ordinal (earlier : Nat) : Nat :=
  ((if earlier < UInt32.size then earlier.toUInt32 else 0xfffffffe) + 1).toNat

/-- As long as the number has 32 bits it is the next one. -/
theorem ordinal_eq {earlier : Nat} (h : earlier + 1 < UInt32.size) : ordinal earlier = 1 + earlier := by
  have small : earlier < UInt32.size := Nat.lt_of_succ_lt h
  rw [ordinal, if_pos small, UInt32.toNat_add, UInt32.toNat_ofNat_of_lt' small]
  show (earlier + 1) % UInt32.size = _
  rw [Nat.mod_eq_of_lt h, Nat.add_comm]

namespace LineTable

/-- The offsets just after each newline, when the text itself begins at `offset`. -/
def startsAfter : Nat → List Char → List Nat
  | _, [] => []
  | offset, c :: cs =>
    let next := offset + c.utf8Size
    if c = '\n' then next :: startsAfter next cs else startsAfter next cs

/-- The table of a text.  The first line starts at `0`, every other one just after a newline. -/
def build (text : List Char) : LineTable :=
  ⟨text, (0 :: (startsAfter 0 text).map (min · (UInt32.size - 1))).toArray⟩

/-- Number of lines; a final newline starts one more. -/
def lineCount (t : LineTable) : Nat := t.starts.size

/-- The halving loop: the number of starts at or before `offset`, given that those below `lo` are
and those from `hi` on are not. -/
def search (starts : Array Nat) (offset lo hi : Nat) (hhi : hi ≤ starts.size) : Nat :=
  if h : lo < hi then
    have middle : (lo + hi) / 2 < starts.size := by omega
    if starts[(lo + hi) / 2] ≤ offset then
      search starts offset ((lo + hi) / 2 + 1) hi hhi
    else
      search starts offset lo ((lo + hi) / 2) (by omega)
  else lo
termination_by hi - lo
decreasing_by all_goals omega

/-- The number of lines before the one that holds `offset`; the last one for an offset past the end. -/
def linesBefore (t : LineTable) (offset : Nat) : Nat :=
  search t.starts offset 0 t.starts.size (Nat.le_refl _) - 1

/-- The 1-based line that holds `offset`. -/
def lineOf (t : LineTable) (offset : Nat) : Nat := ordinal (t.linesBefore offset)

/-- The byte offset at which the 1-based `line` starts. -/
def lineStart? (t : LineTable) (line : Nat) : Option Nat :=
  if line = 0 then none else t.starts[line - 1]?

/-- The 1-based line and column of `offset`.  An offset past the end counts as the end, and one
inside a character as the first column. -/
def position (t : LineTable) (offset : Nat) : Nat × Nat :=
  let line := t.lineOf offset
  let start := (t.lineStart? line).getD 0
  let before := (slice? t.text start (min offset (byteLength t.text))).getD []
  (line, ordinal before.length)

/-- The characters of the 1-based `line`, without its newline; none if there is no such line. -/
def lineText (t : LineTable) (line : Nat) : List Char :=
  match t.lineStart? line with
  | none => []
  | some start =>
    let stop := match t.lineStart? ((line + 1) % UInt32.size) with
      | some next => next - 1
      | none => byteLength t.text
    (slice? t.text start stop).getD []

end LineTable

end ValueShell
