/-
  Reading code.

  What all rules of the grammar share: where problems are reported, which characters are blank, how
  comments are skipped, and the two kinds of quoted strings.
-/
import ValueShell.Number.Numeral
import ValueShell.Syntax.Problem
import ValueShell.Text.Reader

namespace ValueShell

/-- A reader of code. -/
abbrev Reader (α : Type) := TextReader ParseError α

/-- The place after a run of separators and comments, `offset` being that of the given characters.
A comment lasts from `#` to the end of its line; the flag says that one is open. -/
def Cursor.skip (separator : Char → Bool) : Bool → Nat → List Char → Cursor
  | _, offset, [] => ⟨offset, []⟩
  | true, offset, c :: cs => skip separator (c != '\n') (offset + c.utf8Size) cs
  | false, offset, c :: cs =>
    if separator c then skip separator false (offset + c.utf8Size) cs
    else if c = '#' then skip separator true (offset + c.utf8Size) cs
    else ⟨offset, c :: cs⟩

namespace Reader

open TextReader

variable [Offsets]

/-- Fails with a problem about the given region. -/
def failAt {α : Type} (problem : ParseProblem) (span : Span) : Reader α :=
  throw (.problem ⟨problem, span⟩)

/-- The region from `start` to the cursor. -/
def spanFrom (start : Nat) : Reader Span := return ⟨start, ← offset⟩

/-- Fails with a problem about everything from `start` to the cursor. -/
def failFrom {α : Type} (start : Nat) (problem : ParseProblem) : Reader α := do
  failAt problem (← spanFrom start)

/-- Fails because the next character, or the end of the code, is not allowed here. -/
def unexpected {α : Type} : Reader α := do
  let start ← offset
  match ← peek? with
  | some c => failAt (.unexpected c) ⟨start, Offsets.wrap (start + c.utf8Size)⟩
  | none => failAt .unexpectedEnd (Span.point start)

/-! ## Blanks and comments -/

/-- Blanks inside a line. -/
def isSpace (c : Char) : Bool := c == ' ' || c == '\t' || c == '\r'

/-- Blanks, line ends included. -/
def isSpaceOrNewline (c : Char) : Bool := isSpace c || c == '\n'

/-- Skips blanks inside a line. -/
def skipSpaces : Reader Unit := pass (Cursor.dropWhile isSpace)

/-- Goes to the end of the line, or of the code.  If there is a bound for offsets, the end of a line is
looked for by its distance, and one that is no offset counts as none: then the cursor stays. -/
def toLineEnd : Reader Unit :=
  match Offsets.bound? with
  | none => modify (Cursor.dropWhile (· != '\n'))
  | some bound => do
    let c ← get
    let lineEnd := c.dropWhile (· != '\n')
    if !lineEnd.rest.isEmpty && bound ≤ lineEnd.offset - c.offset then return ()
    else reach bound lineEnd

/-- Skips a comment up to the end of its line. -/
def skipComment : Reader Unit := do
  if (← peek?) == some '#' then toLineEnd

/-- Skips separators, and a comment after them, as long as there is a comment. -/
def skipRounds (separator : Char → Bool) : Nat → Reader Unit
  | 0 => throw .exhausted
  | rounds + 1 => do
    pass (Cursor.dropWhile separator)
    if (← peek?) == some '#' then do
      skipComment
      skipRounds separator rounds

/-- Skips separators and comments.  Without a bound for offsets there is a comment less after every round,
and `Cursor.skip` says where the last one ends. -/
def skipAll (separator : Char → Bool) : Reader Unit :=
  match Offsets.bound? with
  | none => modify fun c => Cursor.skip separator false c.offset c.rest
  | some _ => do skipRounds separator ((← get).rest.length + 1)

/-- Skips blanks, line ends and comments, as inside brackets. -/
def skipBlank : Reader Unit := skipAll isSpaceOrNewline

/-- Skips blanks, line ends, semicolons and comments, as between pipelines. -/
def skipSeparators : Reader Unit := skipAll fun c => isSpaceOrNewline c || c == ';'

/-- Whether a form ends at the cursor. -/
def atFormEnd : Reader Bool := do
  match ← peek? with
  | none => return true
  | some c => return c == '\n' || c == ';' || c == '|' || c == ')' || c == '}' || c == '#'

/-- Consumes the closing delimiter of the construct that began at `start`. -/
def closeWith (closer : Char) (what : Construct) (start : Nat) : Reader Unit := do
  if (← peek?) == some closer then advance else failFrom start (.unterminated what)

/-! ## Quoted strings and variables -/

/-- `digits` digits onto the code point `acc`, for an escape that began at `start`. -/
def codePoint (start base : Nat) : Nat → Nat → Reader Char
  | 0, acc => return Char.ofNat acc
  | digits + 1, acc => do
    match (← peek?).bind (Numeral.digit? base) with
    | some d => do
      advance
      codePoint start base digits (acc * base + d)
    | none => failFrom start .invalidEscape

/-- One escape, with the cursor on its backslash. -/
def escape : Reader Char := do
  let start ← offset
  advance
  let simple (c : Char) : Reader Char := do
    advance
    return c
  match ← peek? with
  | some 'n' => simple '\n'
  | some 't' => simple '\t'
  | some 'r' => simple '\r'
  | some 'e' => simple '\x1b'
  | some 'a' => simple '\x07'
  | some '\\' => simple '\\'
  | some '"' => simple '"'
  | some '\'' => simple '\''
  | some 'x' => do
    advance
    codePoint start 16 2 0
  | c => do
    if (c.bind (Numeral.digit? 8)).isSome then codePoint start 8 3 0
    else do
      advance
      failFrom start .invalidEscape

/-- `'...'`, where two quotes stand for one. -/
def singleQuoted (limit : Nat) : Reader String := do
  let start ← offset
  advance
  let chars ← repeated limit do
    match ← peek? with
    | none => failFrom start (.unterminated .singleQuoted)
    | some '\'' => do
      advance
      if (← peek?) == some '\'' then do
        advance
        return .more '\''
      else return .stop
    | some c => do
      advance
      return .more c
  return String.ofList chars

/-- `"..."` with escapes. -/
def doubleQuoted (limit : Nat) : Reader String := do
  let start ← offset
  advance
  let chars ← repeated limit do
    match ← peek? with
    | none => failFrom start (.unterminated .doubleQuoted)
    | some '"' => do
      advance
      return .stop
    | some '\\' => return .more (← escape)
    | some c => do
      advance
      return .more c
  return String.ofList chars

end Reader

end ValueShell
