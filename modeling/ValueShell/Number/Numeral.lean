/-
  Numerals: text read as a number.

  Two readers share the rule for signs.  `Numeral.int64?` reads a whole number that fits 64 bits, in
  base ten or sixteen.  `Numeral.float?` reads a double: digits with an optional point and exponent,
  or a word for infinity or "not a number".  The value of a decimal is rounded once, correctly, from
  its exact fraction.
-/
import ValueShell.Number.Binary64
import ValueShell.Text.Blank

namespace ValueShell

namespace Numeral

/-- Splits off an optional sign; true stands for minus. -/
def sign : List Char → Bool × List Char
  | '+' :: cs => (false, cs)
  | '-' :: cs => (true, cs)
  | cs => (false, cs)

/-- The value of a digit in the given base. -/
def digit? (base : Nat) (c : Char) : Option Nat :=
  let value :=
    if c.isDigit then some (c.toNat - '0'.toNat)
    else if 'a' ≤ c ∧ c ≤ 'f' then some (c.toNat - 'a'.toNat + 10)
    else if 'A' ≤ c ∧ c ≤ 'F' then some (c.toNat - 'A'.toNat + 10)
    else none
  value.filter (· < base)

/-- The value of a run of digits, read onto `acc`. -/
def digits? (base : Nat) : Nat → List Char → Option Nat
  | acc, [] => some acc
  | acc, c :: cs => (digit? base c).bind fun d => digits? base (acc * base + d) cs

/-- A whole number between `-2^63` and `2^63 - 1`: an optional sign and at least one digit. -/
def int64? (base : Nat) (cs : List Char) : Option Int :=
  let (negative, ds) := sign cs
  if ds.isEmpty then none
  else
    (digits? base 0 ds).bind fun n =>
      let value : Int := if negative then -(n : Int) else n
      if leastInt64 ≤ value ∧ value ≤ greatestInt64 then some value else none

/-- The double `± digits · 10^exponent`.  Far outside the range of doubles the answer is infinity or
zero whatever the digits are, and the powers of ten stay small. -/
def decimal (negative : Bool) (digits : Nat) (exponent : Int) : Float :=
  let magnitude :=
    if digits = 0 then 0
    else
      let places : Int := ((Nat.toDigits 10 digits).length : Int) + exponent
      if 310 < places then Binary64.infinityBits
      else if places < -330 then 0
      else Binary64.roundRatio (digits * tenTo exponent.toNat) (tenTo (-exponent).toNat)
  Binary64.toFloat negative magnitude

/-- The exponent part of a decimal: nothing, or `e` with an optional sign and digits. -/
def exponent? : List Char → Option Int
  | [] => some 0
  | c :: cs =>
    if c = 'e' ∨ c = 'E' then
      let (negative, ds) := sign cs
      if ds.isEmpty then none
      else (digits? 10 0 ds).map fun n => if negative then -(n : Int) else n
    else none

/-- An unsigned decimal: digits, at least one of them, with an optional point and exponent. -/
def decimal? (negative : Bool) (cs : List Char) : Option Float :=
  let whole := cs.takeWhile Char.isDigit
  let rest := cs.dropWhile Char.isDigit
  let (fraction, rest) := match rest with
    | '.' :: more => (more.takeWhile Char.isDigit, more.dropWhile Char.isDigit)
    | more => ([], more)
  if whole.isEmpty && fraction.isEmpty then none
  else
    (digits? 10 0 (whole ++ fraction)).bind fun n =>
      (exponent? rest).map fun e => decimal negative n (e - fraction.length)

/-- A double: a sign, then `inf`, `infinity` or `nan` in any case, or a decimal. -/
def float? (cs : List Char) : Option Float :=
  let (negative, body) := sign cs
  let word := body.map Char.toLower
  if word = "inf".toList ∨ word = "infinity".toList then
    some (Binary64.toFloat negative Binary64.infinityBits)
  else if word = "nan".toList then some (0.0 / 0.0)
  else decimal? negative body

end Numeral

/-- The number a text stands for: white space around it is ignored, after `0x` follow hexadecimal
digits of a 64-bit integer, and anything else must be the numeral of a double. -/
def readNumber (text : List Char) : Option Float :=
  match trimBlank text with
  | '0' :: 'x' :: hex => (Numeral.int64? 16 hex).map Binary64.ofInt
  | body => Numeral.float? body

/-- The list index a text stands for: a decimal 64-bit integer, white space around it ignored. -/
def readIndex (text : List Char) : Option Int := Numeral.int64? 10 (trimBlank text)

end ValueShell
