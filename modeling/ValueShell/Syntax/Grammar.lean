/-
  The grammar of the shell language.

  One reader per rule.  A rule that may find nothing (`primary?`, `indexing?`) answers an option, so
  that "nothing here" is told apart from a syntax error.

  The rules do not call each other in a circle.  What may stand INSIDE a bracket, brace or
  parenthesis is handed to them as `Inner`, and `inner` closes the circle level by level: nesting
  depth decreases, and depth `0` is never reached because every level opens a delimiter.
-/
import ValueShell.Syntax.Reader
import ValueShell.Syntax.Tree
import ValueShell.Text.Alphanumeric

namespace ValueShell

/-- Surroundings that take a character out of barewords. -/
structure Surroundings where
  /-- assignment targets and map keys end at `=` -/
  stopAtEq : Bool
  /-- items of a braced list end at `,` -/
  inBraced : Bool
deriving DecidableEq, Repr, Inhabited

namespace Surroundings

/-- No character is taken out. -/
def plain : Surroundings := ⟨false, false⟩

/-- An assignment target or a map key. -/
def target : Surroundings := ⟨true, false⟩

/-- An item of a braced list. -/
def braced : Surroundings := ⟨false, true⟩

end Surroundings

namespace Grammar

open Reader TextReader

/-- The signs that barewords may contain besides letters and digits. -/
def barewordSigns : List Char :=
  ['-', '_', ':', '%', '+', '.', '/', '@', '!', '~', '*', '?', '<', '>', '^']

/-- Whether a bareword may contain `c`. -/
def isBarewordChar (around : Surroundings) (c : Char) : Bool :=
  if c = '=' then !around.stopAtEq
  else if c = ',' then !around.inBraced
  else barewordSigns.contains c || isAlphanumeric c

/-- Whether the name of a variable may contain `c`. -/
def isVariableChar (c : Char) : Bool :=
  isAlphanumeric c || c == '-' || c == '_' || c == ':' || c == '~'

/-- What may stand inside a delimiter. -/
structure Inner where
  /-- pipelines up to the closing character, which is not consumed -/
  chunk : Option Char → Reader Chunk
  compound : Surroundings → Reader Compound

section

variable [Offsets] (limit : Nat) (inner : Inner)

/-! ## Primaries -/

/-- `$name`, `$@name` or `$ns:name`: the text after the dollar sign. -/
def variableName : Reader String := do
  let start ← offset
  advance
  let marked := (← peek?) == some '@'
  if marked then advance
  let name ← munch isVariableChar
  if name.isEmpty then failFrom start .emptyVariableName
  else return String.ofList (if marked then '@' :: name else name)

/-- Compounds separated by blanks, up to and including `closer`. -/
def items (closer : Char) (what : Construct) : Reader (List Compound) := do
  let start := (← offset) - 1
  repeated limit do
    skipBlank
    match ← peek? with
    | none => failFrom start (.unterminated what)
    | some c => do
      if c = closer then do
        advance
        return .stop
      else do
        let item ← inner.compound .plain
        if item.indexings.isEmpty then unexpected else return .more item

/-- `{ chunk }`, with the cursor on the brace. -/
def lambdaBody : Reader Chunk := do
  let start ← offset
  advance
  let body ← inner.chunk (some '}')
  closeWith '}' .lambda start
  return body

/-- The pairs of a map that began at `start`, up to and including its closing bracket. -/
def mapPairs (start : Nat) : Reader (List MapPair) :=
  repeated limit do
    skipBlank
    match ← peek? with
    | none => failFrom start (.unterminated .map)
    | some ']' => do
      advance
      return .stop
    | some '&' => do
      let pairStart ← offset
      advance
      if (← peek?) == some ']' then do
        advance
        return .stop
      else do
        let key ← inner.compound .target
        if key.indexings.isEmpty || (← peek?) != some '=' then failFrom pairStart .badMapPair
        else do
          advance
          let value ← inner.compound .plain
          return .more ⟨key, value, ← spanFrom pairStart⟩
    | some _ => unexpected

/-- The items of a bracket read as parameters. -/
def params : List Compound → Reader (List Param)
  | [] => return []
  | item :: rest => do
    match item.bareword? with
    | some name => return ⟨name, item.span⟩ :: (← params rest)
    | none => failAt .badParameter item.span

/-- What starts with `[` at `start`: a list, a map, or a lambda with parameters. -/
def bracketed (start : Nat) : Reader Primary := do
  advance
  skipBlank
  if (← peek?) == some '&' then do
    let pairs ← mapPairs limit inner start
    return .map pairs (← spanFrom start)
  else do
    let found ← items limit inner ']' .list
    if (← peek?) == some '{' then do
      let names ← params found
      let body ← lambdaBody inner
      return .lambda names body (← spanFrom start)
    else return .list found (← spanFrom start)

/-- `{a,b,c}`, with the cursor on the brace. -/
def bracedItems : Reader (List Compound) := do
  let start ← offset
  advance
  repeated limit do
    skipBlank
    let item ← inner.compound .braced
    skipBlank
    match ← peek? with
    | some ',' => do
      advance
      return .more item
    | some '}' => do
      advance
      return .last item
    | none => failFrom start (.unterminated .bracedList)
    | some _ => unexpected

/-- A bareword, or nothing. -/
def bareword? (around : Surroundings) : Reader (Option Primary) := do
  let start ← offset
  let text ← munch (isBarewordChar around)
  if text.isEmpty then return none
  else return some (.bareword (String.ofList text) (← spanFrom start))

/-- A primary, or nothing. -/
def primary? (around : Surroundings) : Reader (Option Primary) := do
  let start ← offset
  match ← peek? with
  | none => return none
  | some '\'' => do
    let text ← singleQuoted limit
    return some (.singleQuoted text (← spanFrom start))
  | some '"' => do
    let text ← doubleQuoted limit
    return some (.doubleQuoted text (← spanFrom start))
  | some '$' => do
    let text ← variableName
    return some (.reference text (← spanFrom start))
  | some '(' => do
    advance
    let chunk ← inner.chunk (some ')')
    closeWith ')' .outputCapture start
    return some (.capture chunk (← spanFrom start))
  | some '[' => return some (← bracketed limit inner start)
  | some '{' => do
    if (← second?).any isSpaceOrNewline then do
      let body ← lambdaBody inner
      return some (.lambda [] body (← spanFrom start))
    else do
      let found ← bracedItems limit inner
      return some (.braced found (← spanFrom start))
  | some _ => bareword? around

/-! ## Compounds -/

/-- `[...]` after a primary, with the cursor on the opening bracket. -/
def bracket : Reader Bracket := do
  let start ← offset
  advance
  let found ← items limit inner ']' .index
  return ⟨found, ← spanFrom start⟩

/-- A primary with its brackets, or nothing. -/
def indexing? (around : Surroundings) : Reader (Option Indexing) := do
  let start ← offset
  match ← primary? limit inner around with
  | none => return none
  | some head => do
    let brackets ← repeated limit do
      if (← peek?) == some '[' then return .more (← bracket limit inner) else return .stop
    return some ⟨head, brackets, ← spanFrom start⟩

/-- Indexings written next to each other; there may be none. -/
def compound (around : Surroundings) : Reader Compound := do
  let start ← offset
  let indexings ← repeated limit do
    match ← indexing? limit inner around with
    | some found => return .more found
    | none => return .stop
  return ⟨indexings, ← spanFrom start⟩

/-! ## Forms -/

/-- Whether a character cannot start an assignment target, given the one after it. -/
def startsNoTarget (c : Char) (next : Option Char) : Bool :=
  c == '[' || c == '(' || c == '$' || c == '\'' || c == '"' ||
    (c == '{' && next.any isSpaceOrNewline)

/-- `target=value` written without spaces, or nothing. -/
def compactAssignment? : Reader (Option Assignment) := do
  let start ← offset
  match ← peek? with
  | none => return none
  | some c => do
    if startsNoTarget c (← second?) then return none
    else do
      match ← indexing? limit inner .target with
      | none => return none
      | some left => do
        let isTarget := match left.head with
          | .bareword .. | .braced .. => true
          | _ => false
        if !isTarget || (← peek?) != some '=' then return none
        else do
          advance
          let right ← compound limit inner .plain
          return some ⟨left, [right], ← spanFrom start⟩

/-- The compact assignments at the start of a form; none if it starts with something else. -/
def compactAssignments : Reader (List Assignment) := do
  let found ← repeated limit do
    match ← attempt (compactAssignment? limit inner) with
    | none => return .stop
    | some assignment => do
      skipSpaces
      if ← atFormEnd then return .last assignment else return .more assignment
  if found.isEmpty then return []
  else do
    skipSpaces
    if ← atFormEnd then return found
    else failAt .temporaryAssignment (Span.point (← offset))

/-- The span of a form that begins at `start` and whose last part is the last of `parts`. -/
def spanTo (start : Nat) (stop : Nat) (parts : List Span) : Span :=
  ⟨start, (parts.getLast?.map Span.stop).getD stop⟩

/-- A command or a spaced assignment, whose second word is a lone `=`. -/
def commandForm : Reader Form := do
  let start ← offset
  let head ← compound limit inner .plain
  if head.indexings.isEmpty then unexpected
  else do
    let args ← repeated limit do
      skipSpaces
      if ← atFormEnd then return .stop
      else do
        let arg ← compound limit inner .plain
        if arg.indexings.isEmpty then unexpected else return .more arg
    let span := spanTo start head.span.stop (args.map Compound.span)
    match args with
    | second :: values =>
      if second.bareword? = some "=" then
        match head.indexings with
        | [left] => return .assign [⟨left, values, span⟩] span
        | _ => failAt .badTarget head.span
      else return .command head args span
    | [] => return .command head args span

/-- One form of a pipeline. -/
def form : Reader Form := do
  let start ← offset
  match ← compactAssignments limit inner with
  | [] => commandForm limit inner
  | found => return .assign found (spanTo start start (found.map Assignment.span))

/-- Forms connected by `|`. -/
def pipeline : Reader Pipeline := do
  let start ← offset
  let first ← form limit inner
  let others ← repeated limit do
    skipSpaces
    if (← peek?) == some '|' then do
      advance
      skipBlank
      return .more (← form limit inner)
    else return .stop
  return ⟨first :: others, spanTo start start ((first :: others).map Form.span)⟩

/-- Pipelines up to `closer`, or up to the end of the code. -/
def chunk (closer : Option Char) : Reader Chunk := do
  let start ← offset
  let pipelines ← repeated limit do
    skipSeparators
    match ← peek? with
    | none => return .stop
    | some c => do
      if closer = some c then return .stop
      else if c = ')' ∨ c = ']' ∨ c = '}' then unexpected
      else do
        let found ← pipeline limit inner
        skipSpaces
        skipComment
        match ← peek? with
        | none => return .last found
        | some c => do
          if c = '\n' ∨ c = ';' then return .more found
          else if closer = some c then return .last found
          else unexpected
  return ⟨pipelines, ← spanFrom start⟩

end

/-- What may stand inside a delimiter, down to the given nesting depth. -/
def inner [Offsets] (limit : Nat) : Nat → Inner
  | 0 => ⟨fun _ => throw .exhausted, fun _ => throw .exhausted⟩
  | depth + 1 =>
    ⟨fun closer => chunk limit (inner limit depth) closer,
     fun around => compound limit (inner limit depth) around⟩

/-- A whole source text. -/
def unit [Offsets] (limit : Nat) : Reader Chunk := do
  let found ← chunk limit (inner limit limit) none
  if (← peek?).isSome then unexpected else return found

end Grammar

/-- Reads a source text.  Neither a repetition nor the nesting can exceed the number of characters,
so the limit is one more.  Offsets have 32 bits. -/
def readChunk (code : String) : Except (ReadStop ParseError) Chunk :=
  let chars := code.toList
  (@Grammar.unit .word (chars.length + 1) (Cursor.start chars)).map Prod.fst

end ValueShell
