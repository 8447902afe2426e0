/-
  Sets of characters given as ranges of code points.

  A character class of the Unicode standard is a finite union of ranges, so it is stored as the
  list of their end points in ascending order and asked for membership by `CharRange.any`.  The
  class modules beside this one (`Text.Alphanumeric`, `Text.Blank`, `Text.Printable`) hold one
  list each; the ASCII part of a class is written as a rule wherever a rule is shorter.
-/

namespace ValueShell

/-- The code points from `first` to `last`, both included. -/
structure CharRange where
  first : Nat
  last : Nat
deriving DecidableEq, Repr, Inhabited

namespace CharRange

/-- Whether `c` lies in the range. -/
def contains (r : CharRange) (c : Char) : Bool :=
  decide (r.first ≤ c.toNat) && decide (c.toNat ≤ r.last)

/-- Whether `c` lies in one of the ranges whose end points are listed. -/
def any (ends : List (Nat × Nat)) (c : Char) : Bool :=
  ends.any fun (first, last) => contains ⟨first, last⟩ c

end CharRange

end ValueShell
