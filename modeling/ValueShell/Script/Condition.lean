/-
  Conditions: what `test` and `[` decide.

  A condition is a list of arguments, of which some are operators.  Which of them are depends on what
  follows: an operator that needs an operand and has none is a text, and so is one that stands before
  an operator between two operands.  With three or four arguments an operator in the middle,
  parentheses around the others and a leading `!` come first.
-/
import ValueShell.Script.Arithmetic

namespace ValueShell

namespace Script

/-- What is asked about a file. -/
inductive FileQuestion
  | exists | regular | directory | characterDevice | readable | writable | executable | filled | other
deriving DecidableEq, Repr, Inhabited

/-- What conditions ask about the outside. -/
structure Facts where
  file : FileQuestion → ByteText → Bool
  /-- whether two paths lead to the same file -/
  sameFile : ByteText → ByteText → Bool

/-- An operator of conditions. -/
inductive ConditionOperator
  | not | and | or | opening | closing
  | isEmpty | isFilled | terminal
  | file (question : FileQuestion)
  | sameText (wanted : Bool)
  | textOrder (less : Bool)
  | numbers (operator : BinaryOperator)
  | sameFile
  | newer
deriving DecidableEq, Repr, Inhabited

namespace ConditionOperator

/-- The operators by their names. -/
def named : List (String × ConditionOperator) :=
  [("!", not), ("-a", and), ("-o", or), ("(", opening), (")", closing), ("-z", isEmpty),
   ("-n", isFilled), ("-t", terminal), ("-e", file .exists), ("-f", file .regular),
   ("-d", file .directory), ("-c", file .characterDevice), ("-r", file .readable),
   ("-w", file .writable), ("-x", file .executable), ("-s", file .filled), ("-b", file .other),
   ("-p", file .other), ("-u", file .other), ("-g", file .other), ("-k", file .other),
   ("-L", file .other), ("-h", file .other), ("-S", file .other), ("-O", file .exists),
   ("-G", file .exists), ("=", sameText true), ("!=", sameText false), ("<", textOrder true),
   (">", textOrder false), ("-eq", numbers .equal), ("-ne", numbers .notEqual),
   ("-gt", numbers .greater), ("-ge", numbers .greaterEqual), ("-lt", numbers .less),
   ("-le", numbers .lessEqual), ("-ef", sameFile), ("-nt", newer), ("-ot", newer)]

/-- The operator of a name. -/
def ofText? (text : ByteText) : Option ConditionOperator :=
  (named.find? fun (name, _) => name.toList == text).map Prod.snd

/-- Whether an operator stands before one operand. -/
def isUnary : ConditionOperator → Bool
  | isEmpty | isFilled | terminal | file _ => true
  | _ => false

/-- Whether an operator stands between two operands. -/
def isBinary : ConditionOperator → Bool
  | sameText _ | textOrder _ | numbers _ | sameFile | newer => true
  | _ => false

end ConditionOperator

/-- Why a condition has no answer. -/
inductive ConditionProblem
  | missingBracket
  | missingParenthesis
  | missingArgument (operator : ByteText)
  | unexpected (operand : ByteText)
  | notANumber (text : ByteText)
deriving DecidableEq, Repr, Inhabited

/-- The wording of a problem. -/
def ConditionProblem.message : ConditionProblem → String
  | missingBracket => "missing ]"
  | missingParenthesis => "closing paren expected"
  | missingArgument operator => ByteText.toString operator ++ ": argument expected"
  | unexpected [] => "unexpected operator"
  | unexpected operand => ByteText.toString operand ++ ": unexpected operator"
  | notANumber text => "Illegal number: " ++ ByteText.toString text

namespace Condition

/-- The integer that a text is. -/
def number (text : ByteText) : Except ConditionProblem Int :=
  match Arithmetic.readDecimal? text with
  | some n => .ok n
  | none => .error (.notANumber text)

/-- The operator that the first argument is where it stands. -/
def operator? (args : List ByteText) : Option ConditionOperator :=
  match args with
  | [] => none
  | first :: rest =>
    let standsAlone : Bool := match rest with
      | [] => true
      | [_] => false
      | second :: _ => ((ConditionOperator.ofText? second).map ConditionOperator.isBinary).getD false
    match ConditionOperator.ofText? first with
    | none => none
    | some op =>
      if (op.isUnary && standsAlone) || (op == .opening && rest.isEmpty) then none else some op

/-- The answer of an operator before its operand. -/
def unary (facts : Facts) (op : ConditionOperator) (operand : ByteText) :
    Except ConditionProblem Bool :=
  match op with
  | .isEmpty => .ok operand.isEmpty
  | .isFilled => .ok !operand.isEmpty
  | .terminal => (number operand).map fun _ => false
  | .file question => .ok (facts.file question operand)
  | _ => .ok false

/-- The answer of an operator between its operands. -/
def binary (facts : Facts) (op : ConditionOperator) (left right : ByteText) :
    Except ConditionProblem Bool :=
  match op with
  | .sameText wanted => .ok ((left == right) == wanted)
  | .textOrder less => .ok (if less then left < right else right < left)
  | .numbers operator => do
    let a ← number left
    let b ← number right
    return operator.apply a b == some 1
  | .sameFile => .ok (facts.sameFile left right)
  | _ => .ok false

/-- Reads a text, or two texts with an operator between them. -/
def operand (facts : Facts) (first : ByteText) (rest : List ByteText) :
    Except ConditionProblem (Bool × List ByteText) :=
  match operator? rest, rest with
  | some op, name :: operands =>
    if op.isBinary then
      match operands with
      | [] => .error (.missingArgument name)
      | second :: _ => (binary facts op first second).map fun answer => (answer, operands)
    else .ok (!first.isEmpty, first :: rest)
  | _, _ => .ok (!first.isEmpty, first :: rest)

mutual

/-- Reads alternatives: the answer, and the arguments from the last one that was used.  `turns` bounds
how deep the rules lead. -/
def either (facts : Facts) : Nat → List ByteText → Except ConditionProblem (Bool × List ByteText)
  | 0, args => .ok (false, args)
  | turns + 1, args => do
    let (first, last) ← both facts turns args
    if operator? last.tail == some .or then
      let (second, last) ← either facts turns (last.drop 2)
      return (first || second, last)
    else return (first, last)

/-- Reads a conjunction. -/
def both (facts : Facts) : Nat → List ByteText → Except ConditionProblem (Bool × List ByteText)
  | 0, args => .ok (false, args)
  | turns + 1, args => do
    let (first, last) ← negation facts turns args
    if operator? last.tail == some .and then
      let (second, last) ← both facts turns (last.drop 2)
      return (first && second, last)
    else return (first, last)

/-- Reads a condition that may be negated. -/
def negation (facts : Facts) : Nat → List ByteText → Except ConditionProblem (Bool × List ByteText)
  | 0, args => .ok (false, args)
  | turns + 1, args =>
    match operator? args, args.tail with
    | some .not, [] => .ok (true, args)
    | some .not, inside => (negation facts turns inside).map fun (answer, last) => (!answer, last)
    | _, _ => primary facts turns args

/-- Reads one question. -/
def primary (facts : Facts) : Nat → List ByteText → Except ConditionProblem (Bool × List ByteText)
  | 0, args => .ok (false, args)
  | _ + 1, [] => .ok (false, [])
  | turns + 1, first :: rest =>
    match operator? (first :: rest) with
    | some op =>
      if op = .opening then
        if operator? rest == some .closing then .ok (false, rest)
        else do
          let (inside, last) ← either facts turns rest
          if operator? last.tail == some .closing then return (inside, last.tail)
          else throw .missingParenthesis
      else if op.isUnary then
        match rest with
        | [] => .error (.missingArgument first)
        | operand :: _ => (unary facts op operand).map fun answer => (answer, rest)
      else operand facts first rest
    | none => operand facts first rest

end

/-- Decides a condition that is read as a whole. -/
def whole (facts : Facts) (args : List ByteText) : Except ConditionProblem Bool := do
  let (answer, last) ← either facts (8 * (args.length + 1)) args
  match last with
  | operand :: _ :: _ => throw (.unexpected operand)
  | _ => return answer

/-- Decides the condition that arguments are, with `wanted` as the answer that counts as success.  The
rules for three and for four arguments come before all others. -/
def holdsFor (facts : Facts) (wanted : Bool) (args : List ByteText) :
    Except ConditionProblem Bool :=
  match args with
  | [] => .ok false
  | first :: rest =>
    let middle : Bool := match rest with
      | [name, _] => ((ConditionOperator.ofText? name).map ConditionOperator.isBinary).getD false
      | _ => false
    let count := rest.length
    if middle then (operand facts first rest).map fun (answer, _) => answer == wanted
    else if (count = 2 ∨ count = 3) ∧ first = ['('] ∧ rest.getLast? = some [')'] then
      (whole facts rest.dropLast).map (· == wanted)
    else if (count = 2 ∨ count = 3) ∧ first = ['!'] then holdsFor facts false rest
    else (whole facts args).map (· == wanted)

/-- Decides the condition that the arguments of `test` are, or those of `[` without the bracket that
ends them. -/
def holds (facts : Facts) (bracket : Bool) (args : List ByteText) : Except ConditionProblem Bool :=
  if bracket then
    if args.getLast? = some [']'] then holdsFor facts true args.dropLast
    else .error .missingBracket
  else holdsFor facts true args

end Condition

end Script

end ValueShell
