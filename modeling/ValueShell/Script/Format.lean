/-
  Formatted output: the texts that `echo` and `printf` write.

  A format is read as pieces, plain text and directives, and the pieces are then written with the
  arguments that are given, again and again as long as arguments are left.  Backslash sequences are
  those of the C language; in an argument an octal number may begin with an extra zero, and `\c`
  ends all output.
-/
import ValueShell.Number.Numeral
import ValueShell.Script.Arithmetic

namespace ValueShell

namespace Script

/-- The character that a letter stands for after a backslash. -/
def escapeCode? (c : Char) : Option Char :=
  match c with
  | 'a' => some '\x07'
  | 'b' => some '\x08'
  | 'e' => some '\x1b'
  | 'f' => some '\x0c'
  | 'n' => some '\n'
  | 'r' => some '\r'
  | 't' => some '\t'
  | 'v' => some '\x0b'
  | '\\' => some '\\'
  | _ => none

/-- Whether `c` is an octal digit. -/
def isOctal (c : Char) : Bool := decide ('0' ≤ c ∧ c ≤ '7')

/-- The byte of up to three octal digits at the front. -/
def octalByte (cs : ByteText) : Char :=
  let digits := (cs.takeWhile isOctal).take 3
  Char.ofNat (digits.foldl (fun n c => n * 8 + (c.toNat - '0'.toNat)) 0 % 256)

/-- How many octal digits, up to three, are at the front. -/
def octalWidth (cs : ByteText) : Nat := ((cs.takeWhile isOctal).take 3).length

/-- What stands for a backslash and what follows it: a character, and how much of the text it takes. -/
def escaped (cs : ByteText) : Char × Nat :=
  match cs with
  | [] => ('\\', 0)
  | c :: _ =>
    match escapeCode? c with
    | some x => (x, 1)
    | none => if isOctal c then (octalByte cs, octalWidth cs) else ('\\', 0)

/-- An argument with its backslash sequences replaced; false if `\c` cuts all output off.  `turns`
bounds its length. -/
def unescape : Nat → ByteText → ByteText × Bool
  | 0, _ => ([], true)
  | _ + 1, [] => ([], true)
  | turns + 1, '\\' :: cs =>
    match cs with
    | 'c' :: _ => ([], false)
    | _ =>
      let body := match cs with
        | '0' :: d :: _ => if isOctal d then cs.drop 1 else cs
        | _ => cs
      let (c, width) := escaped body
      let (more, goesOn) := unescape turns (body.drop width)
      (c :: more, goesOn)
  | turns + 1, c :: cs =>
    let (more, goesOn) := unescape turns cs
    (c :: more, goesOn)

/-- What `echo` writes. -/
def echoed (args : List ByteText) : ByteText :=
  let (args, lineEnd) := match args with
    | ['-', 'n'] :: rest => (rest, false)
    | _ => (args, true)
  let rec joined : List ByteText → ByteText × Bool
    | [] => ([], true)
    | [only] => unescape (only.length + 1) only
    | first :: rest =>
      let (text, goesOn) := unescape (first.length + 1) first
      if goesOn then
        let (more, goesOn) := joined rest
        (text ++ ' ' :: more, goesOn)
      else (text, false)
  let (text, goesOn) := joined args
  if lineEnd && goesOn then text ++ ['\n'] else text

/-! ## Directives -/

/-- A number in a directive: given there, or by an argument. -/
inductive Amount
  | given (n : Int)
  | argument
deriving DecidableEq, Repr, Inhabited

/-- A directive of a format. -/
structure Directive where
  flags : List Char
  width : Option Amount
  precision : Option Amount
  kind : Char
deriving DecidableEq, Repr, Inhabited

/-- A piece of a format. -/
inductive FormatPiece
  | char (c : Char)
  | directive (d : Directive)
  /-- nothing follows the last percent sign -/
  | cutOff
  | invalid (text : ByteText)
deriving DecidableEq, Repr, Inhabited

/-- The digits at the front as a number, and what follows. -/
def amountDigits (cs : ByteText) : Option Amount × ByteText :=
  match Arithmetic.takeDigits 10 cs with
  | (some n, rest) => (some (.given n), rest)
  | (none, rest) => (none, rest)

/-- The directive behind a percent sign, and what follows it. -/
def readDirective (cs : ByteText) : FormatPiece × ByteText :=
  let isFlag (c : Char) : Bool := ['#', '-', '+', ' ', '0'].contains c
  let flags := cs.takeWhile isFlag
  let (width, rest) : Option Amount × ByteText := match cs.dropWhile isFlag with
    | '*' :: rest => (some .argument, rest)
    | rest => amountDigits rest
  let (precision, rest) : Option Amount × ByteText := match rest with
    | '.' :: '*' :: rest => (some .argument, rest)
    | '.' :: rest =>
      let (digits, rest) := amountDigits rest
      (some (digits.getD (.given 0)), rest)
    | rest => (none, rest)
  match rest with
  | [] => (.cutOff, [])
  | kind :: after =>
    if "bcsdiouxXeEfFgG".toList.contains kind then (.directive ⟨flags, width, precision, kind⟩, after)
    else (.invalid ('%' :: cs.take (cs.length - after.length)), after)

/-- The pieces of a format; `turns` bounds how many there are. -/
def readFormat : Nat → ByteText → List FormatPiece
  | 0, _ => []
  | _ + 1, [] => []
  | turns + 1, '\\' :: cs =>
    let (c, width) := escaped cs
    .char c :: readFormat turns (cs.drop width)
  | turns + 1, '%' :: '%' :: cs => .char '%' :: readFormat turns cs
  | turns + 1, '%' :: cs =>
    let (piece, rest) := readDirective cs
    piece :: readFormat turns rest
  | turns + 1, c :: cs => .char c :: readFormat turns cs

/-! ## Fields -/

/-- A text in a field of at least the given width, to the left if it is negative. -/
def inField (width : Int) (text : ByteText) : ByteText :=
  let padding := List.replicate (width.natAbs - text.length) ' '
  if width < 0 then text ++ padding else padding ++ text

/-- The sign before a number. -/
def signFor (flags : List Char) (negative : Bool) : ByteText :=
  if negative then ['-'] else if flags.contains '+' then ['+'] else if flags.contains ' ' then [' ']
  else []

/-- A number in a field: its sign or prefix, then its digits, with zeros between the two if they fill
the field. -/
def numberField (flags : List Char) (width : Int) (zeros : Bool) (front digits : ByteText) :
    ByteText :=
  if zeros && flags.contains '0' && !flags.contains '-' && decide (0 ≤ width) then
    front ++ List.replicate (width.toNat - front.length - digits.length) '0' ++ digits
  else inField (if flags.contains '-' then -(width.natAbs : Int) else width) (front ++ digits)

/-- The digits of a number, at least as many as the precision says. -/
def digitsOf (base : Nat) (upper : Bool) (n : Nat) (precision : Option Int) : ByteText :=
  let digits := if n = 0 ∧ precision = some 0 then [] else Nat.toDigits base n
  let digits := if upper then digits.map Char.toUpper else digits
  List.replicate ((precision.getD 1).toNat - digits.length) '0' ++ digits

/-- An integer as a directive writes it. -/
def integerField (d : Directive) (width : Int) (precision : Option Int) (n : Int) : ByteText :=
  let zeros := precision.isNone
  let magnitude := BinaryOperator.bits n
  match d.kind with
  | 'u' => numberField d.flags width zeros [] (digitsOf 10 false magnitude precision)
  | 'o' =>
    let digits := digitsOf 8 false magnitude precision
    let digits := if d.flags.contains '#' && digits.head? != some '0' then '0' :: digits else digits
    numberField d.flags width zeros [] digits
  | 'x' =>
    let front := if d.flags.contains '#' && magnitude != 0 then ['0', 'x'] else []
    numberField d.flags width zeros front (digitsOf 16 false magnitude precision)
  | 'X' =>
    let front := if d.flags.contains '#' && magnitude != 0 then ['0', 'X'] else []
    numberField d.flags width zeros front (digitsOf 16 true magnitude precision)
  | _ =>
    numberField d.flags width zeros (signFor d.flags (n < 0)) (digitsOf 10 false n.natAbs precision)

/-! ## Doubles -/

/-- The digits of `num / den` with the given number of places after the point. -/
def fixedDigits (num den places : Nat) (point : Bool) : ByteText :=
  let scaled := Binary64.divNearestEven (num * tenTo places) den
  let digits := Nat.toDigits 10 scaled
  let digits := List.replicate (places + 1 - digits.length) '0' ++ digits
  let whole := digits.take (digits.length - places)
  let fraction := digits.drop (digits.length - places)
  if places = 0 then if point then whole ++ ['.'] else whole else whole ++ '.' :: fraction

/-- How often `num` has to be multiplied by ten to reach `den`; at most `turns` times. -/
def placesToReach (den : Nat) : Nat → Nat → Nat
  | 0, _ => 0
  | turns + 1, num => if den ≤ num then 0 else placesToReach den turns (num * 10) + 1

/-- The decimal exponent of the double `num / den`: the place of its first digit. -/
def decimalExponent (num den : Nat) : Int :=
  if num = 0 then 0
  else if den ≤ num then ((Nat.toDigits 10 (num / den)).length : Int) - 1
  else -(placesToReach den 400 num : Int)

/-- `num / den` as digits and an exponent, with the given number of places. -/
def scientificDigits (num den places : Nat) (point : Bool) : ByteText × Int :=
  let exponent := decimalExponent num den
  let scaled (e : Int) : ByteText :=
    fixedDigits (num * tenTo (-e).toNat) (den * tenTo e.toNat) places point
  let digits := scaled exponent
  if (digits.takeWhile Char.isDigit).length = 1 then (digits, exponent)
  else (scaled (exponent + 1), exponent + 1)

/-- An exponent of at least two digits. -/
def exponentText (letter : Char) (e : Int) : ByteText :=
  let digits := Nat.toDigits 10 e.natAbs
  letter :: (if e < 0 then '-' else '+') :: (List.replicate (2 - digits.length) '0' ++ digits)

/-- Digits with a point, without the zeros at their end. -/
def withoutZeros (digits : ByteText) : ByteText :=
  if digits.contains '.' then
    match digits.reverse.dropWhile (· = '0') with
    | '.' :: rest => rest.reverse
    | rest => rest.reverse
  else digits

/-- The magnitude `num / den` as a directive writes it. -/
def magnitudeText (d : Directive) (precision : Option Int) (num den : Nat) : ByteText :=
  let places := (precision.getD 6).toNat
  let point := d.flags.contains '#'
  let letter := if d.kind.isUpper then 'E' else 'e'
  match d.kind.toLower with
  | 'f' => fixedDigits num den places point
  | 'e' =>
    let (digits, e) := scientificDigits num den places point
    digits ++ exponentText letter e
  | _ =>
    let places := max places 1
    let (digits, e) := scientificDigits num den (places - 1) point
    let shorten (text : ByteText) : ByteText := if point then text else withoutZeros text
    if e < -4 ∨ (places : Int) ≤ e then shorten digits ++ exponentText letter e
    else shorten (fixedDigits num den ((places : Int) - 1 - e).toNat point)

/-- A double as a directive writes it. -/
def doubleField (d : Directive) (width : Int) (precision : Option Int) (x : Float) : ByteText :=
  match Binary64.ofFloat? x with
  | some b =>
    let (num, den) := b.ratio
    numberField d.flags width true (signFor d.flags b.negative) (magnitudeText d precision num den)
  | none =>
    let word := if x.isNaN then "nan" else "inf"
    let word := if d.kind.isUpper then word.toList.map Char.toUpper else word.toList
    numberField d.flags width false (signFor d.flags (x < 0.0)) word

/-! ## Arguments -/

/-- What is wrong with the number in an argument. -/
inductive NumberProblem
  | noNumber
  | moreThanNumber
  | outOfRange
deriving DecidableEq, Repr, Inhabited

/-- The wording of a problem. -/
def NumberProblem.message : NumberProblem → String
  | noNumber => "expected numeric value"
  | moreThanNumber => "not completely converted"
  | outOfRange => "Numerical result out of range"

/-- Whether `c` counts as a blank before a number. -/
def isSpaceByte (c : Char) : Bool := c == ' ' || decide ('\t' ≤ c ∧ c ≤ '\r')

/-- The integer in an argument, with what is wrong with it; a quote stands before the number of a
character.  A number without sign reaches to `2^64 - 1`, and wraps. -/
def integerArgument (signed : Bool) (text : ByteText) : Int × Option NumberProblem :=
  match text with
  | '"' :: c :: _ => (c.toNat, none)
  | '\'' :: c :: _ => (c.toNat, none)
  | ['"'] => (0, none)
  | ['\''] => (0, none)
  | [] => (0, none)
  | _ =>
    let body := text.dropWhile isSpaceByte
    let (negative, body) := match body with
      | '-' :: rest => (true, rest)
      | '+' :: rest => (false, rest)
      | _ => (false, body)
    let base : Nat := match body with
      | '0' :: x :: h :: _ =>
        if (x = 'x' ∨ x = 'X') ∧ (Numeral.digit? 16 h).isSome then 16 else 8
      | '0' :: _ => 8
      | _ => 10
    match Arithmetic.takeDigits base (if base = 16 then body.drop 2 else body) with
    | (none, _) => (0, some .noNumber)
    | (some n, rest) =>
      let value : Int := if negative then -(n : Int) else n
      let problem := if rest.isEmpty then none else some NumberProblem.moreThanNumber
      if signed then
        if value = clamp64 value then (value, problem)
        else (clamp64 value, some (problem.getD .outOfRange))
      else if n < 0x10000000000000000 then (wrap64 value, problem)
      else (-1, some (problem.getD .outOfRange))

/-- The longest beginning of a text that is a decimal. -/
def decimalPrefix (cs : ByteText) : ByteText :=
  let signs := (cs.take 1).filter fun c => c == '+' || c == '-'
  let body := cs.drop signs.length
  let whole := body.takeWhile Char.isDigit
  let rest := body.drop whole.length
  let fraction := match rest with
    | '.' :: more => '.' :: more.takeWhile Char.isDigit
    | _ => []
  if whole.isEmpty && fraction.length < 2 then []
  else
    let rest := rest.drop fraction.length
    let exponent := match rest with
      | e :: more =>
        let signs := (more.take 1).filter fun c => c == '+' || c == '-'
        let digits := (more.drop signs.length).takeWhile Char.isDigit
        if (e = 'e' ∨ e = 'E') ∧ digits ≠ [] then e :: signs ++ digits else []
      | [] => []
    signs ++ whole ++ fraction ++ exponent

/-- The double in an argument, with what is wrong with it. -/
def doubleArgument (text : ByteText) : Float × Option NumberProblem :=
  match text with
  | '"' :: c :: _ => (c.toNat.toFloat, none)
  | '\'' :: c :: _ => (c.toNat.toFloat, none)
  | [] => (0.0, none)
  | _ =>
    let body := text.dropWhile isSpaceByte
    match Numeral.float? body with
    | some x => (x, none)
    | none =>
      match Numeral.float? (decimalPrefix body) with
      | some x => (x, some .moreThanNumber)
      | none => (0.0, some .noNumber)

/-! ## Writing -/

/-- What `printf` leaves behind. -/
structure Printed where
  output : ByteText
  complaints : List String
  /-- the complaint that ended it early -/
  failure : Option String
  /-- `\c` has ended all output -/
  cutOff : Bool
  args : List ByteText
deriving Inhabited

namespace Printed

/-- Takes the next argument. -/
def next (p : Printed) : Option ByteText × Printed := (p.args.head?, { p with args := p.args.tail })

/-- Adds output. -/
def add (p : Printed) (text : ByteText) : Printed := { p with output := p.output ++ text }

/-- Notes what is wrong with an argument. -/
def note (p : Printed) (text : ByteText) : Option NumberProblem → Printed
  | none => p
  | some problem =>
    { p with complaints := p.complaints ++ [ByteText.toString text ++ ": " ++ problem.message] }

/-- Takes the next argument as an integer. -/
def nextInteger (p : Printed) (signed : Bool) : Int × Printed :=
  match p.next with
  | (none, p) => (0, p)
  | (some text, p) =>
    let (n, problem) := integerArgument signed text
    (n, p.note text problem)

/-- The value of a width or a precision. -/
def amount (p : Printed) : Option Amount → Option Int × Printed
  | none => (none, p)
  | some (.given n) => (some n, p)
  | some .argument =>
    let (n, p) := p.nextInteger true
    (some n, p)

/-- Writes one piece. -/
def piece (p : Printed) : FormatPiece → Printed
  | .char c => p.add [c]
  | .cutOff => { p with failure := some "missing format character" }
  | .invalid text => { p with failure := some (ByteText.toString text ++ ": invalid directive") }
  | .directive d =>
    let (width, p) := p.amount d.width
    let (precision, p) := p.amount d.precision
    let width := width.getD 0
    let precision := precision.filter (0 ≤ ·)
    let shown (text : ByteText) : ByteText :=
      let text := match precision with
        | some n => text.take n.toNat
        | none => text
      inField (if d.flags.contains '-' then -(width.natAbs : Int) else width) text
    match d.kind with
    | 's' =>
      let (text, p) := p.next
      p.add (shown (text.getD []))
    | 'b' =>
      let (text, p) := p.next
      let (text, goesOn) := unescape ((text.getD []).length + 1) (text.getD [])
      { p.add (shown text) with cutOff := !goesOn }
    | 'c' =>
      let (text, p) := p.next
      let c := (text.bind List.head?).getD '\x00'
      p.add (inField (if d.flags.contains '-' then -(width.natAbs : Int) else width) [c])
    | kind =>
      if kind = 'd' ∨ kind = 'i' then
        let (n, p) := p.nextInteger true
        p.add (integerField d width precision n)
      else if ['o', 'u', 'x', 'X'].contains kind then
        let (n, p) := p.nextInteger false
        p.add (integerField d width precision n)
      else
        match p.next with
        | (none, p) => p.add (doubleField d width precision 0.0)
        | (some text, p) =>
          let (x, problem) := doubleArgument text
          (p.note text problem).add (doubleField d width precision x)

/-- Whether nothing more is written. -/
def isOver (p : Printed) : Bool := p.failure.isSome || p.cutOff

/-- Writes pieces. -/
def pieces (p : Printed) (ps : List FormatPiece) : Printed :=
  ps.foldl (fun p piece => if p.isOver then p else p.piece piece) p

/-- Writes a format once, and again as long as arguments are left and are used up. -/
def turns (ps : List FormatPiece) : Nat → Printed → Printed
  | 0, p => p
  | n + 1, p =>
    let after := p.pieces ps
    if after.isOver || after.args.isEmpty || after.args.length == p.args.length then after
    else turns ps n after

/-- What `printf` writes for a format and arguments. -/
def run (format : ByteText) (args : List ByteText) : Printed :=
  turns (readFormat (format.length + 1) format) (args.length + 1) ⟨[], [], none, false, args⟩

end Printed

end Script

end ValueShell
