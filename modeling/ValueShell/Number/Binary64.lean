/-
  Numbers of the shell as exact quantities.

  A number is a double.  To print it, read it or compare it with an integer, its bits are taken
  apart into a sign, a SIGNIFICAND `m` and an EXPONENT `q`, so that a finite number is `± m · 2^q`
  with natural `m`; from there on all arithmetic is exact.  The way back is `roundRatio`: the bits
  of the double nearest to a fraction of natural numbers, where a tie goes to the even significand
  and whatever is too large becomes infinity.
-/
import ValueShell.Number.Power

namespace ValueShell

/-- A finite double `± significand · 2^exponent`. -/
structure Binary64 where
  negative : Bool
  significand : Nat
  exponent : Int
deriving DecidableEq, Repr, Inhabited

namespace Binary64

/-- The exponent of the smallest doubles: their significands count units of `2^leastExponent`. -/
def leastExponent : Int := -1074

/-- The bits of positive infinity, the first ones past those of every finite double. -/
def infinityBits : Nat := 0x7ff * twoTo 52

/-- The parts of a finite number; none for the infinities and for what is not a number. -/
def ofFloat? (x : Float) : Option Binary64 :=
  let bits := x.toBits.toNat
  let biased := bits / twoTo 52 % 2048
  let fraction := bits % twoTo 52
  let negative := decide (twoTo 63 ≤ bits)
  if biased = 2047 then none
  else if biased = 0 then some ⟨negative, fraction, leastExponent⟩
  else some ⟨negative, twoTo 52 + fraction, leastExponent + (biased - 1 : Nat)⟩

/-- The magnitude as a fraction of natural numbers. -/
def ratio (b : Binary64) : Nat × Nat :=
  if 0 ≤ b.exponent then (b.significand * twoTo b.exponent.toNat, 1)
  else (b.significand, twoTo (-b.exponent).toNat)

/-- Whether the number has no fractional part. -/
def isIntegral (b : Binary64) : Bool := b.ratio.1 % b.ratio.2 == 0

/-- The number without its fractional part. -/
def truncate (b : Binary64) : Int :=
  let magnitude : Int := (b.ratio.1 / b.ratio.2 : Nat)
  if b.negative then -magnitude else magnitude

/-- `num / den` to the nearest natural number, a tie to the even one. -/
def divNearestEven (num den : Nat) : Nat :=
  let quotient := num / den
  let twice := 2 * (num % den)
  if twice < den then quotient
  else if den < twice then quotient + 1
  else quotient + quotient % 2

/-- `num / den` divided by `2^q`, as a fraction. -/
def scaled (num den : Nat) (q : Int) : Nat × Nat :=
  if 0 ≤ q then (num, den * twoTo q.toNat) else (num * twoTo (-q).toNat, den)

/-- The exponent whose units give `num / den` a significand of 53 bits, or the least one. -/
def unitExponent (num den : Nat) : Int :=
  let guess := max ((num.log2 : Int) - den.log2 - 53) leastExponent
  let (n, d) := scaled num den guess
  if twoTo 53 * d ≤ n then guess + 1 else guess

/-- The bits, without a sign, of the double nearest to `num / den`.  Counting the significand in
units of `2^q`, the bits of `m · 2^q` are `(q + 1074) · 2^52 + m` for normal and subnormal numbers
alike, and a significand rounded up to `2^53` carries into the exponent by itself. -/
def roundRatio (num den : Nat) : Nat :=
  if num = 0 then 0
  else
    let q := unitExponent num den
    let (n, d) := scaled num den q
    min infinityBits ((q - leastExponent).toNat * twoTo 52 + divNearestEven n d)

/-- The double with the given sign and magnitude bits. -/
def toFloat (negative : Bool) (magnitude : Nat) : Float :=
  Float.ofBits (UInt64.ofNat (if negative then twoTo 63 + magnitude else magnitude))

/-- The double nearest to an integer. -/
def ofInt (n : Int) : Float := toFloat (decide (n < 0)) (roundRatio n.natAbs 1)

end Binary64

end ValueShell
