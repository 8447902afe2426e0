/-
  White space, and its removal from both ends of a text.

  The class is the Unicode property White_Space, which is wider than the blanks that separate
  words of a script: it also holds the no-break space, the line and paragraph separators and the
  wide spaces.  Numerals and list indices are read after `trimBlank`.
-/
import ValueShell.Text.CharRange

namespace ValueShell

namespace Blank

/-- The white-space code points, as ranges in ascending order. -/
def ranges : List (Nat × Nat) :=
  [(0x9, 0xd), (0x20, 0x20), (0x85, 0x85), (0xa0, 0xa0), (0x1680, 0x1680), (0x2000, 0x200a),
   (0x2028, 0x2029), (0x202f, 0x202f), (0x205f, 0x205f), (0x3000, 0x3000)]

end Blank

/-- Whether `c` is white space. -/
def isBlank (c : Char) : Bool := CharRange.any Blank.ranges c

/-- `cs` without the white space at its start and at its end. -/
def trimBlank (cs : List Char) : List Char :=
  ((cs.dropWhile isBlank).reverse.dropWhile isBlank).reverse

end ValueShell
