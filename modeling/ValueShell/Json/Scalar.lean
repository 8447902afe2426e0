/-
  JSON words, numbers and strings.

  A number that is a whole number of 64 bits keeps its digits.  Any other becomes a double: its first
  digits, as many as fit 64 bits, are converted and then scaled by ONE power of ten, so the result may
  differ from the nearest double in its last digit.
-/
import ValueShell.Json.Problem
import ValueShell.Number.Format
import ValueShell.Number.Numeral
import ValueShell.Text.Reader

namespace ValueShell

/-- A reader of JSON. -/
abbrev JsonReader (α : Type) := TextReader JsonError α

namespace JsonReader

open TextReader

/-- Fails with a problem after `offset` bytes. -/
def failAt {α : Type} (problem : JsonProblem) (offset : Nat) : JsonReader α :=
  throw (.problem ⟨problem, offset⟩)

/-- Fails with a problem at the cursor. -/
def fail {α : Type} (problem : JsonProblem) : JsonReader α := do failAt problem (← offset)

/-- Fails with a problem at the next byte, or at the end of the text. -/
def failNext {α : Type} (problem : JsonProblem) : JsonReader α := do
  let cursor ← get
  failAt problem (if cursor.rest.isEmpty then cursor.offset else cursor.offset + 1)

/-- Whether `c` may stand between the parts of a JSON text. -/
def isBlank (c : Char) : Bool := c == ' ' || c == '\n' || c == '\t' || c == '\r'

/-- Skips blanks. -/
def skipBlank : JsonReader Unit := modify (Cursor.dropWhile isBlank)

/-- Reads the given characters. -/
def word : List Char → JsonReader Unit
  | [] => return ()
  | c :: cs => do
    match ← peek? with
    | none => fail .endOfValue
    | some d =>
      if d = c then do
        advance
        word cs
      else failNext .expectedWord

/-! ## Numbers -/

/-- The largest significand. -/
def maxSignificand : Nat := twoTo 64 - 1

/-- Reads digits onto a significand as long as it fits, and answers the digits left. -/
def extend (significand : Nat) : List Char → Nat × List Char
  | [] => (significand, [])
  | c :: cs =>
    let next := significand * 10 + (c.toNat - '0'.toNat)
    if next ≤ maxSignificand then extend next cs else (significand, c :: cs)

/-- The powers of ten that a double can be scaled by in one step. -/
def powerOfTen (exponent : Nat) : Float := Numeral.decimal false 1 exponent

/-- A double divided by `10^308`, `steps` times, or until it is zero. -/
def shrink : Nat → Float → Float
  | 0, x => x
  | steps + 1, x => if x == 0.0 then x else shrink steps (x / powerOfTen 308)

/-- The double `significand · 10^exponent`, scaled in one step if the exponent allows it; none if it is
too large. -/
def scale? (significand : Nat) (exponent : Int) : Option Float :=
  let x := Binary64.ofInt significand
  if 308 < exponent then if significand = 0 then some x else none
  else if 0 ≤ exponent then
    let scaled := x * powerOfTen exponent.toNat
    if scaled.isInf then none else some scaled
  else
    let size := exponent.natAbs
    let steps := (size - 1) / 308
    some (shrink (min steps 3) x / powerOfTen (if 3 < steps then 0 else size - 308 * steps))

/-- A double from its sign and its parts. -/
def double (negative : Bool) (significand : Nat) (exponent : Int) : JsonReader String :=
  match scale? significand exponent with
  | none => fail .numberOutOfRange
  | some x => return jsonNumberText (if negative then -x else x)

/-- The digits of an exponent onto `acc`; if the exponent leaves 32 bits, how many digits it took. -/
def exponentDigits (acc count : Nat) : List Char → Except Nat Nat
  | [] => .ok acc
  | c :: cs =>
    let next := acc * 10 + (c.toNat - '0'.toNat)
    if next < twoTo 31 then exponentDigits next (count + 1) cs else .error (count + 1)

/-- The exponent of a number, with the cursor on its `e`. -/
def exponentPart (negative : Bool) (significand : Nat) (exponent : Int) : JsonReader String := do
  advance
  let sign ← peek?
  if sign == some '+' || sign == some '-' then advance
  let start ← offset
  match ← munch Char.isDigit with
  | [] => if (← peek?).isNone then fail .endOfValue else failNext .invalidNumber
  | digits =>
    match exponentDigits 0 0 digits with
    | .ok n => double negative significand (if sign == some '-' then exponent - n else exponent + n)
    | .error count =>
      if significand ≠ 0 ∧ sign ≠ some '-' then failAt .numberOutOfRange (start + count)
      else return jsonNumberText (if negative then -0.0 else 0.0)

/-- What follows the digits of a fraction. -/
def afterFraction (negative : Bool) (significand : Nat) (exponent : Int) : JsonReader String := do
  match ← peek? with
  | some 'e' | some 'E' => exponentPart negative significand exponent
  | _ => double negative significand exponent

/-- The fraction of a number, with the cursor on its point. -/
def fractionPart (negative : Bool) (significand : Nat) (exponent : Int) : JsonReader String := do
  advance
  match ← munch Char.isDigit with
  | [] => if (← peek?).isNone then failNext .endOfValue else failNext .invalidNumber
  | digits =>
    let (significand, left) := extend significand digits
    afterFraction negative significand (exponent - (digits.length - left.length : Nat))

/-- A whole number that fits 64 bits; with a minus sign, zero and what does not fit are doubles. -/
def whole (negative : Bool) (n : Nat) : String :=
  if !negative then toString n
  else if n = 0 ∨ twoTo 63 < n then jsonNumberText (-(Binary64.ofInt n))
  else "-" ++ toString n

/-- The text of a number, after its sign. -/
def number (negative : Bool) : JsonReader String := do
  match ← peek? with
  | none => fail .endOfValue
  | some c => do
    if !c.isDigit then failNext .invalidNumber
    else
      if c = '0' then
        advance
        if ((← peek?).map Char.isDigit).getD false then failNext .invalidNumber
      let digits ← munch Char.isDigit
      let (significand, left) := extend 0 digits
      match ← peek? with
      | some '.' => fractionPart negative significand left.length
      | some 'e' | some 'E' => exponentPart negative significand left.length
      | _ =>
        if left.isEmpty then return whole negative significand
        else double negative significand left.length

/-! ## Strings -/

/-- The value of four hexadecimal digits. -/
def hexValue (cs : List Char) : Option Nat := Numeral.digits? 16 0 cs

/-- Four hexadecimal digits. -/
def fourHex : JsonReader Nat := do
  let cursor ← get
  let next := cursor.rest.take 4
  if byteLength next < 4 then failAt .endOfText (cursor.offset + byteLength next)
  else
    match hexValue next with
    | none => failAt .invalidEscape (cursor.offset + 4)
    | some n => do
      set (Cursor.mk (cursor.offset + 4) (cursor.rest.drop 4))
      return n

/-- The character `c`, which the second half of a surrogate pair has to go on with. -/
def pairWith (c : Char) : JsonReader Unit := do
  match ← peek? with
  | none => fail .endOfText
  | some d => if d = c then advance else failNext .unfinishedSurrogate

/-- The character of a `\u` escape, after the `u`.  A character beyond 16 bits takes two escapes. -/
def unicodeEscape : JsonReader Char := do
  let first ← fourHex
  if 0xdc00 ≤ first ∧ first ≤ 0xdfff then fail .loneSurrogate
  else if first < 0xd800 ∨ 0xdbff < first then return Char.ofNat first
  else do
    pairWith '\\'
    pairWith 'u'
    let second ← fourHex
    if second < 0xdc00 ∨ 0xdfff < second then fail .loneSurrogate
    else return Char.ofNat ((first - 0xd800) * 0x400 + (second - 0xdc00) + 0x10000)

/-- The character of an escape, after the backslash. -/
def escape : JsonReader Char := do
  let simple (c : Char) : JsonReader Char := do
    advance
    return c
  match ← peek? with
  | none => fail .endOfText
  | some '"' => simple '"'
  | some '\\' => simple '\\'
  | some '/' => simple '/'
  | some 'b' => simple '\x08'
  | some 'f' => simple '\x0c'
  | some 'n' => simple '\n'
  | some 'r' => simple '\r'
  | some 't' => simple '\t'
  | some 'u' => do
    advance
    unicodeEscape
  | some _ => failNext .invalidEscape

/-- A string, with the cursor on its opening quote. -/
def string (limit : Nat) : JsonReader String := do
  advance
  let chars ← repeated limit do
    match ← peek? with
    | none => fail .endOfText
    | some '"' => do
      advance
      return .stop
    | some '\\' => do
      advance
      return .more (← escape)
    | some c =>
      if c.toNat < 0x20 then failNext .controlCharacter
      else do
        advance
        return .more c
  return String.ofList chars

end JsonReader

end ValueShell
