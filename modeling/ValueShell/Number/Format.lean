/-
  Numbers written as text.

  `numberText` is the plain form that values print with: integers below `10^15` in full, everything
  else as the shortest decimal in positional notation, and never `-0`.  `jsonNumberText` is the form
  of a double inside JSON: always with a point or an exponent, and with an exponent from `10^16` up
  and below `10^-5`.
-/
import ValueShell.Number.Shortest

namespace ValueShell

/-- A number in plain notation. -/
def numberText (x : Float) : String :=
  match Binary64.ofFloat? x with
  | none => if x.isNaN then "NaN" else if 0.0 < x then "+Inf" else "-Inf"
  | some b =>
    let sign := if b.negative then ['-'] else []
    if b.isIntegral && decide (b.truncate.natAbs < tenTo 15) then toString b.truncate
    else String.ofList (sign ++ (Decimal.shortest .up b.significand b.exponent).positional)

/-- The digits of a decimal with a point after the first one, followed by a signed exponent. -/
def Decimal.scientific (d : Decimal) : List Char :=
  let ds := Decimal.digitChars d.digits
  let exponent : Int := d.exponent + (ds.length - 1 : Nat)
  let mark := if exponent < 0 then "e-" else "e+"
  let point := match ds with
    | first :: second :: more => first :: '.' :: second :: more
    | _ => ds
  point ++ mark.toList ++ Decimal.digitChars exponent.natAbs

/-- A finite double as JSON writes it; the empty text for the others, which JSON does not have. -/
def jsonNumberText (x : Float) : String :=
  match Binary64.ofFloat? x with
  | none => ""
  | some b =>
    let sign := if b.negative then ['-'] else []
    let d := Decimal.shortest .even b.significand b.exponent
    let places : Int := d.exponent + (Decimal.digitChars d.digits).length
    let body :=
      if d.digits = 0 then "0.0".toList
      else if places ≤ -5 ∨ 16 < places then d.scientific
      else if 0 ≤ d.exponent then d.positional ++ ".0".toList
      else d.positional
    String.ofList (sign ++ body)

end ValueShell
