/-
  Arithmetic expressions of scripts.

  Integers of 64 bits with the operators of the C language, variables by name, and assignments.  An
  expression is evaluated while it is read, so what stands before a mistake has its effect, and of two
  mistakes the first counts.  Variables are reached through `Variables`, so nothing here knows of
  scripts.
-/
import ValueShell.Number.Power
import ValueShell.Text.Bytes

namespace ValueShell

namespace Script

/-- An operator between two numbers. -/
inductive BinaryOperator
  | multiply | divide | remainder | add | subtract | shiftLeft | shiftRight
  | less | lessEqual | greater | greaterEqual | equal | notEqual
  | bitAnd | bitXor | bitOr
deriving DecidableEq, Repr, Inhabited

/-- An operator before a number. -/
inductive UnaryOperator
  | minus | not | complement
deriving DecidableEq, Repr, Inhabited

/-- Why an expression has no value. -/
inductive ArithmeticProblem
  | expectingPrimary
  | expectingEnd
  | expectingParenthesis
  | expectingColon
  | divisionByZero
deriving DecidableEq, Repr, Inhabited

/-- The wording of a problem. -/
def ArithmeticProblem.message : ArithmeticProblem → String
  | expectingPrimary => "expecting primary"
  | expectingEnd => "expecting EOF"
  | expectingParenthesis => "expecting ')'"
  | expectingColon => "expecting ':'"
  | divisionByZero => "division by zero"

/-- The integer of 64 bits with the same last 64 binary digits. -/
def wrap64 (n : Int) : Int := n.bmod 0x10000000000000000

/-- The nearest integer of 64 bits. -/
def clamp64 (n : Int) : Int := max leastInt64 (min greatestInt64 n)

namespace BinaryOperator

/-- An integer as the natural number with the same 64 binary digits. -/
def bits (n : Int) : Nat := (n.emod 0x10000000000000000).toNat

/-- One for true and zero for false. -/
def ofBool (b : Bool) : Int := if b then 1 else 0

/-- The value of an operation; none for a division by zero. -/
def apply (operator : BinaryOperator) (a b : Int) : Option Int :=
  match operator with
  | multiply => some (wrap64 (a * b))
  | divide => if b = 0 then none else some (wrap64 (a.tdiv b))
  | remainder => if b = 0 then none else some (wrap64 (a.tmod b))
  | add => some (wrap64 (a + b))
  | subtract => some (wrap64 (a - b))
  | shiftLeft => some (wrap64 (a * twoTo (bits b % 64)))
  | shiftRight => some (a.fdiv (twoTo (bits b % 64)))
  | less => some (ofBool (a < b))
  | lessEqual => some (ofBool (a ≤ b))
  | greater => some (ofBool (b < a))
  | greaterEqual => some (ofBool (b ≤ a))
  | equal => some (ofBool (a == b))
  | notEqual => some (ofBool (a != b))
  | bitAnd => some (wrap64 (Nat.land (bits a) (bits b)))
  | bitXor => some (wrap64 (Nat.xor (bits a) (bits b)))
  | bitOr => some (wrap64 (Nat.lor (bits a) (bits b)))

/-- The levels of binding, the loosest first, each with its operators. -/
def levels : List (List (String × BinaryOperator)) :=
  [[("|", bitOr)], [("^", bitXor)], [("&", bitAnd)], [("==", equal), ("!=", notEqual)],
   [("<", less), ("<=", lessEqual), (">", greater), (">=", greaterEqual)],
   [("<<", shiftLeft), (">>", shiftRight)], [("+", add), ("-", subtract)],
   [("*", multiply), ("/", divide), ("%", remainder)]]

/-- The operator that an assignment such as `+=` applies; none within for `=` itself. -/
def ofAssignment? (text : String) : Option (Option BinaryOperator) :=
  match text with
  | "=" => some none
  | "*=" => some (some multiply)
  | "/=" => some (some divide)
  | "%=" => some (some remainder)
  | "+=" => some (some add)
  | "-=" => some (some subtract)
  | "<<=" => some (some shiftLeft)
  | ">>=" => some (some shiftRight)
  | "&=" => some (some bitAnd)
  | "^=" => some (some bitXor)
  | "|=" => some (some bitOr)
  | _ => none

end BinaryOperator

/-- The value of an operation on one number. -/
def UnaryOperator.apply (operator : UnaryOperator) (n : Int) : Int :=
  match operator with
  | minus => wrap64 (-n)
  | not => BinaryOperator.ofBool (n == 0)
  | complement => -n - 1

namespace Arithmetic

/-! ## Tokens -/

/-- A token of an expression. -/
inductive ArithmeticToken
  | number (n : Int)
  | name (text : String)
  | operator (text : String)
deriving DecidableEq, Repr, Inhabited

/-- The digits at the front in a base, and what follows. -/
def takeDigits (base : Nat) (cs : ByteText) : Option Nat × ByteText :=
  let value (c : Char) : Nat :=
    if c.isDigit then c.toNat - '0'.toNat
    else if 'a' ≤ c ∧ c ≤ 'f' then c.toNat - 'a'.toNat + 10
    else if 'A' ≤ c ∧ c ≤ 'F' then c.toNat - 'A'.toNat + 10
    else base
  let digits := cs.takeWhile fun c => value c < base
  if digits.isEmpty then (none, cs)
  else (some (digits.foldl (fun n c => n * base + value c) 0), cs.drop digits.length)

/-- The number at the front, with the base that its beginning says, and what follows. -/
def takeNumber? (cs : ByteText) : Option (Int × ByteText) :=
  let plain (base : Nat) (cs : ByteText) : Option (Int × ByteText) :=
    match takeDigits base cs with
    | (some n, rest) => some (clamp64 n, rest)
    | (none, _) => none
  match cs with
  | '0' :: x :: rest =>
    if x = 'x' ∨ x = 'X' then
      match plain 16 rest with
      | some found => some found
      | none => some (0, x :: rest)
    else plain 8 cs
  | _ => plain 10 cs

/-- A number with blanks around it and a sign, as the value of a variable is read. -/
def readSigned? (cs : ByteText) : Option Int :=
  let isSpace (c : Char) : Bool := c == ' ' || decide ('\t' ≤ c ∧ c ≤ '\r')
  let body := cs.dropWhile isSpace
  let (negative, body) := match body with
    | '-' :: rest => (true, rest)
    | '+' :: rest => (false, rest)
    | _ => (false, body)
  match takeNumber? body with
  | some (n, rest) =>
    if rest.all isSpace then some (clamp64 (if negative then -n else n)) else none
  | none => if cs.isEmpty then some 0 else none

/-- A decimal with blanks around it and a sign; none if it does not fit 64 bits. -/
def readDecimal? (cs : ByteText) : Option Int :=
  let isSpace (c : Char) : Bool := c == ' ' || decide ('\t' ≤ c ∧ c ≤ '\r')
  let body := cs.dropWhile isSpace
  let (negative, body) := match body with
    | '-' :: rest => (true, rest)
    | '+' :: rest => (false, rest)
    | _ => (false, body)
  match takeDigits 10 body with
  | (some n, rest) =>
    let value : Int := if negative then -(n : Int) else n
    if rest.all isSpace ∧ clamp64 value = value then some value else none
  | (none, _) => none

/-- The operators, longer ones before those they begin with. -/
def operatorTexts : List String :=
  ["<<=", ">>=", "<<", ">>", "<=", ">=", "==", "!=", "&&", "||", "*=", "/=", "%=", "+=", "-=", "&=",
   "^=", "|=", "<", ">", "=", "!", "&", "|", "*", "/", "%", "+", "-", "^", "~", "?", ":", "(", ")"]

/-- The tokens of a text; `turns` bounds how many there are.  A character that fits nothing is a token
of its own, which no rule takes. -/
def tokens : Nat → ByteText → List ArithmeticToken
  | 0, _ => []
  | _ + 1, [] => []
  | turns + 1, c :: cs =>
    if c = ' ' ∨ c = '\t' ∨ c = '\n' then tokens turns cs
    else if c.isDigit then
      match takeNumber? (c :: cs) with
      | some (n, rest) => .number n :: tokens turns rest
      | none => .operator "0" :: tokens turns cs
    else if c.isAlpha || c == '_' then
      let name := (c :: cs).takeWhile fun c => c.isAlphanum || c == '_'
      .name (String.ofList name) :: tokens turns ((c :: cs).drop name.length)
    else
      match operatorTexts.find? fun text => text.toList.isPrefixOf (c :: cs) with
      | some text => .operator text :: tokens turns ((c :: cs).drop text.toList.length)
      | none => .operator (String.ofList [c]) :: tokens turns cs

/-- The ways to reach variables, and to fail. -/
structure Variables (m : Type → Type) where
  read : String → m Int
  write : String → Int → m Unit
  fail : {α : Type} → ArithmeticProblem → m α

variable {m : Type → Type} [Monad m] (v : Variables m)

/-- The value of an operation on two numbers; nothing is computed in a part that is skipped. -/
def operate (skips : Bool) (operator : BinaryOperator) (a b : Int) : m Int :=
  if skips then return b
  else
    match operator.apply a b with
    | some n => return n
    | none => v.fail .divisionByZero

mutual

/-- Evaluates an assignment, or what binds more tightly, and answers the tokens behind it.  What is
skipped is read, but does nothing.  `turns` bounds how deep the rules lead. -/
def assignment : Nat → Bool → List ArithmeticToken → m (Int × List ArithmeticToken)
  | 0, _, _ => v.fail .expectingPrimary
  | turns + 1, skips, ts =>
    match ts with
    | .name name :: .operator text :: rest =>
      match BinaryOperator.ofAssignment? text with
      | some operator => do
        let (right, rest) ← assignment turns skips rest
        if skips then return (right, rest)
        let result ← match operator with
          | none => pure right
          | some operator => do operate v false operator (← v.read name) right
        v.write name result
        return (result, rest)
      | none => choice turns skips ts
    | _ => choice turns skips ts

/-- Evaluates a choice between two expressions, or what binds more tightly. -/
def choice : Nat → Bool → List ArithmeticToken → m (Int × List ArithmeticToken)
  | 0, _, _ => v.fail .expectingPrimary
  | turns + 1, skips, ts => do
    let (test, rest) ← either turns skips ts
    match rest with
    | .operator "?" :: rest =>
      let (yes, rest) ← assignment turns (skips || test == 0) rest
      match rest with
      | .operator ":" :: rest =>
        let (no, rest) ← choice turns (skips || test != 0) rest
        return (if test = 0 then no else yes, rest)
      | _ => v.fail .expectingColon
    | _ => return (test, rest)

/-- Evaluates alternatives, or what binds more tightly. -/
def either : Nat → Bool → List ArithmeticToken → m (Int × List ArithmeticToken)
  | 0, _, _ => v.fail .expectingPrimary
  | turns + 1, skips, ts => do
    let (left, rest) ← both turns skips ts
    match rest with
    | .operator "||" :: rest =>
      let (right, rest) ← either turns (skips || left != 0) rest
      return (BinaryOperator.ofBool (left != 0 || right != 0), rest)
    | _ => return (left, rest)

/-- Evaluates a conjunction, or what binds more tightly. -/
def both : Nat → Bool → List ArithmeticToken → m (Int × List ArithmeticToken)
  | 0, _, _ => v.fail .expectingPrimary
  | turns + 1, skips, ts => do
    let (left, rest) ← chain turns BinaryOperator.levels skips ts
    match rest with
    | .operator "&&" :: rest =>
      let (right, rest) ← both turns (skips || left == 0) rest
      return (BinaryOperator.ofBool (left != 0 && right != 0), rest)
    | _ => return (left, rest)

/-- Evaluates what the operators of the given levels join. -/
def chain : Nat → List (List (String × BinaryOperator)) → Bool → List ArithmeticToken →
    m (Int × List ArithmeticToken)
  | 0, _, _, _ => v.fail .expectingPrimary
  | turns + 1, [], skips, ts => primary turns skips ts
  | turns + 1, level :: tighter, skips, ts => do
    let (first, rest) ← chain turns tighter skips ts
    chainTail turns level tighter skips first rest

/-- Evaluates the rest of a chain of operators of one level. -/
def chainTail : Nat → List (String × BinaryOperator) → List (List (String × BinaryOperator)) →
    Bool → Int → List ArithmeticToken → m (Int × List ArithmeticToken)
  | 0, _, _, _, _, _ => v.fail .expectingPrimary
  | turns + 1, level, tighter, skips, left, ts =>
    match ts with
    | .operator text :: rest =>
      match level.lookup text with
      | some operator => do
        let (right, rest) ← chain turns tighter skips rest
        let result ← operate v skips operator left right
        chainTail turns level tighter skips result rest
      | none => return (left, ts)
    | _ => return (left, ts)

/-- Evaluates a number, a variable, an expression in parentheses, or one of these behind an operator. -/
def primary : Nat → Bool → List ArithmeticToken → m (Int × List ArithmeticToken)
  | 0, _, _ => v.fail .expectingPrimary
  | turns + 1, skips, ts =>
    let behind (operator : UnaryOperator) (rest : List ArithmeticToken) :
        m (Int × List ArithmeticToken) := do
      let (operand, rest) ← primary turns skips rest
      return (operator.apply operand, rest)
    match ts with
    | .number n :: rest => return (n, rest)
    | .name name :: rest => do
      if skips then return (0, rest)
      let n ← v.read name
      return (n, rest)
    | .operator "+" :: rest => primary turns skips rest
    | .operator "-" :: rest => behind .minus rest
    | .operator "!" :: rest => behind .not rest
    | .operator "~" :: rest => behind .complement rest
    | .operator "(" :: rest => do
      let (inside, rest) ← assignment turns skips rest
      match rest with
      | .operator ")" :: rest => return (inside, rest)
      | _ => v.fail .expectingParenthesis
    | _ => v.fail .expectingPrimary

end

/-- The value of an expression. -/
def evaluate (text : ByteText) : m Int := do
  let ts := tokens (text.length + 1) text
  let (n, rest) ← assignment v (32 * (ts.length + 1)) false ts
  if rest.isEmpty then return n else v.fail .expectingEnd

end Arithmetic

end Script

end ValueShell
