/-
  The fewest decimal digits that identify a double.

  A double `m · 2^q` stands for an INTERVAL of reals: all those that are rounded to it.  Its two ends
  lie half way to the neighbouring doubles and belong to it when `m` is even.  The shortest decimal is
  a point of the coarsest grid of multiples of a power of ten that has a point in the interval; if a
  point of a grid lies there, so does one of the two grid points around the double itself, so only
  these two are tried.  Of two hits on one grid the nearer is taken, and `Tie` decides when both are
  equally near.
-/
import ValueShell.Number.Binary64

namespace ValueShell

/-- Which of two equally near decimals is taken. -/
inductive Tie
  /-- the one of larger magnitude -/
  | up
  /-- the one with an even last digit -/
  | even
deriving DecidableEq, Repr, Inhabited

/-- The decimal `digits · 10^exponent`. -/
structure Decimal where
  digits : Nat
  exponent : Int
deriving DecidableEq, Repr, Inhabited

namespace Decimal

/-- Numerator and denominator of `n · 10^k · 2^e`. -/
def scaleBy (n : Nat) (k e : Int) : Nat × Nat :=
  (n * tenTo k.toNat * twoTo e.toNat, tenTo (-k).toNat * twoTo (-e).toNat)

/-- Whether `c · 10^k` lies in the interval of `m · 2^q`, measured in quarters of `2^q`: the upper
end is two quarters above, the lower one two quarters below, or one at a power of two, where the
doubles below are twice as dense. -/
def inInterval (m : Nat) (q : Int) (c : Nat) (k : Int) : Bool :=
  let (num, den) := scaleBy c k (2 - q)
  let dense := decide (m = twoTo 52) && decide (Binary64.leastExponent < q)
  let low := (if dense then 4 * m - 1 else 4 * m - 2) * den
  let high := (4 * m + 2) * den
  if m % 2 = 0 then decide (low ≤ num) && decide (num ≤ high)
  else decide (low < num) && decide (num < high)

/-- The hit on the grid of multiples of `10^k`, if there is one: the nearer of the two grid points
around `m · 2^q` that lie in the interval. -/
def onGrid (tie : Tie) (m : Nat) (q k : Int) : Option Nat :=
  let (num, den) := scaleBy m (-k) q
  let below := num / den
  let above := below + 1
  match inInterval m q below k, inInterval m q above k with
  | true, false => some below
  | false, true => some above
  | true, true =>
    let twice := 2 * (num % den)
    if twice < den then some below
    else if den < twice then some above
    else match tie with
      | .up => some above
      | .even => if below % 2 = 0 then some below else some above
  | false, false => none

/-- Tries grid after grid, from multiples of `10^k` towards finer ones, at most `steps` of them. -/
def search (tie : Tie) (m : Nat) (q : Int) : Nat → Int → Decimal
  | 0, k => ⟨m, k⟩
  | steps + 1, k =>
    match onGrid tie m q k with
    | some c => ⟨c, k⟩
    | none => search tie m q steps (k - 1)

/-- A power of ten above `m · 2^q`: `log₁₀ 2` is a little less than `30103 / 100000`. -/
def coarsest (m : Nat) (q : Int) : Int := ((m.log2 : Int) + q + 1) * 30103 / 100000 + 1

/-- `digits · 10^exponent` without zeros at the end of the digits; `fuel` bounds their number. -/
def dropZeros : Nat → Decimal → Decimal
  | 0, d => d
  | fuel + 1, d =>
    if d.digits ≠ 0 ∧ d.digits % 10 = 0 then dropZeros fuel ⟨d.digits / 10, d.exponent + 1⟩ else d

/-- The shortest decimal that is rounded to `m · 2^q`.  Seventeen digits always suffice, and the
search starts at most three places above the first digit. -/
def shortest (tie : Tie) (m : Nat) (q : Int) : Decimal :=
  if m = 0 then ⟨0, 0⟩ else dropZeros 20 (search tie m q 24 (coarsest m q))

/-- The digits of a natural number in base ten. -/
def digitChars (n : Nat) : List Char := Nat.toDigits 10 n

/-- The decimal in positional notation, without an exponent and without a point if it is whole. -/
def positional (d : Decimal) : List Char :=
  let ds := digitChars d.digits
  if 0 ≤ d.exponent then ds ++ List.replicate d.exponent.toNat '0'
  else
    let places := (-d.exponent).toNat
    let padded := List.replicate (places + 1 - ds.length) '0' ++ ds
    padded.take (padded.length - places) ++ ['.'] ++ padded.drop (padded.length - places)

end Decimal

end ValueShell
