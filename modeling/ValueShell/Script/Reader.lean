/-
  Reading a script: characters and tokens.

  A script is read command by command, so that what a command defines holds for the reading of the
  next.  A backslash before the end of a line joins it to the next line everywhere but in single
  quotes; `joinLines` removes such pairs before a character is looked at.
-/
import ValueShell.Script.Syntax
import ValueShell.Table

namespace ValueShell

namespace Script

/-- A token of the command language. -/
inductive Token
  | word (word : Word)
  | reserved (text : String)
  | operator (text : String)
  | redirect (descriptor : Option Nat) (operator : String)
  | newline
  | ending

instance : Inhabited Token := ⟨.ending⟩

namespace Token

/-- How a token is named in a message. -/
def shown : Token → String
  | word _ => "word"
  | reserved text => "\"" ++ text ++ "\""
  | operator text => "\"" ++ text ++ "\""
  | redirect .. => "redirection"
  | newline => "newline"
  | ending => "end of file"

/-- Whether a list of commands ends before this token. -/
def endsList : Token → Bool
  | ending => true
  | operator text => [";;", ")"].contains text
  | reserved text =>
    ["do", "done", "elif", "else", "esac", "fi", "then", "\x7d"].contains text
  | _ => false

/-- Whether a token is the given operator. -/
def isOperator (t : Token) (text : String) : Bool :=
  match t with
  | operator found => found == text
  | _ => false

/-- Whether a token is the given reserved word. -/
def isReserved (t : Token) (text : String) : Bool :=
  match t with
  | reserved found => found == text
  | _ => false

end Token

/-- Why a script cannot be read. -/
inductive Problem
  | unexpected (found : String) (wanted : Option String)
  | unterminatedQuotes
  | unterminatedBackquotes
  | missingBrace
  | missingParentheses
  | badLoopVariable
  | badFunctionName
  | badDescriptor
  /-- the bound on nested commands was reached -/
  | nestedTooDeep
deriving DecidableEq, Repr, Inhabited

/-- The wording of a problem. -/
def Problem.message : Problem → String
  | unexpected found none => found ++ " unexpected"
  | unexpected found (some wanted) => found ++ " unexpected (expecting " ++ wanted ++ ")"
  | unterminatedQuotes => "Unterminated quoted string"
  | unterminatedBackquotes => "EOF in backquote substitution"
  | missingBrace => "Missing '\x7d'"
  | missingParentheses => "Missing '))'"
  | badLoopVariable => "Bad for loop variable"
  | badFunctionName => "Bad function name"
  | badDescriptor => "Bad fd number"
  | nestedTooDeep => "nested too deep"

/-- A here-document whose text has not been reached yet. -/
structure Awaited where
  number : Nat
  delimiter : ByteText
  quoted : Bool
  stripTabs : Bool
deriving Inhabited

/-- An alias whose meaning is being read. -/
structure OpenAlias where
  name : String
  /-- the length of the text behind it -/
  following : Nat
  /-- its meaning ends in a blank, so the word behind it can be an alias as well -/
  opensNext : Bool
deriving Inhabited

/-- The state of reading. -/
structure Reader where
  rest : ByteText
  line : Nat
  /-- a token that was looked at and put back -/
  pushed : Option Token
  awaited : List Awaited
  /-- the texts of all here-documents so far -/
  documents : Array Word
  aliases : Table ByteText
  /-- the aliases that are being read, or have just been -/
  openAliases : List OpenAlias
deriving Inhabited

namespace Reader

/-- The beginning of a text, read while this reader waits. -/
def nested (r : Reader) (text : ByteText) : Reader :=
  { rest := text.filter (· ≠ '\x00'), line := 1, pushed := none, awaited := []
    documents := r.documents, aliases := r.aliases, openAliases := [] }

/-- This reader after another one has read a text in between. -/
def resumed (r inner : Reader) : Reader :=
  { r with documents := inner.documents, aliases := inner.aliases }

/-- Whether the end of the text has been reached. -/
def isAtEnd (r : Reader) : Bool :=
  match r.pushed with
  | some .ending => true
  | _ => false

end Reader

/-- A step of reading. -/
abbrev Parse := EStateM Problem Reader

/-- Removes the joints between lines from the front; `line` counts them. -/
def joinLines : ByteText → Nat → ByteText × Nat
  | '\\' :: '\n' :: cs, line => joinLines cs (line + 1)
  | cs, line => (cs, line)

/-- Removes blanks, joints and a comment from the front. -/
def skipBlanks : ByteText → Nat → ByteText × Nat
  | '\\' :: '\n' :: cs, line => skipBlanks cs (line + 1)
  | ' ' :: cs, line => skipBlanks cs line
  | '\t' :: cs, line => skipBlanks cs line
  | '#' :: cs, line => (cs.dropWhile (· ≠ '\n'), line)
  | cs, line => (cs, line)

namespace Parse

/-- The next character as it stands. -/
def peekRaw : Parse (Option Char) := fun r => .ok r.rest.head? r

/-- The next character, after joints between lines. -/
def peek : Parse (Option Char) := fun r =>
  match joinLines r.rest r.line with
  | (rest, line) => .ok rest.head? { r with rest, line }

/-- Takes the next character. -/
def take : Parse Unit := fun r =>
  match r.rest with
  | [] => .ok () r
  | c :: rest => .ok () { r with rest, line := if c = '\n' then r.line + 1 else r.line }

/-- Takes the next character and does not look whether it ends a line. -/
def swallow : Parse Unit := modify fun r => { r with rest := r.rest.drop 1 }

/-- Whether reading has come to the end of an alias that opens the next word; it does so once. -/
def afterAlias : Parse Bool := fun r =>
  if r.pushed.isSome || r.openAliases.isEmpty then .ok false r
  else
    let left := (skipBlanks r.rest r.line).1.length
    let (closed, stillOpen) := r.openAliases.partition fun a => decide (left ≤ a.following)
    .ok (closed.any OpenAlias.opensNext) { r with openAliases := stillOpen }

/-- Takes the next character if it is `c`. -/
def takeIf (c : Char) : Parse Bool := do
  if (← peek) = some c then
    take
    return true
  else return false

/-- Skips blanks and a comment. -/
def blanks : Parse Unit := fun r =>
  match skipBlanks r.rest r.line with
  | (rest, line) => .ok () { r with rest, line }

/-- Takes characters as long as they fit. -/
def takeWhile (fits : Char → Bool) : Parse ByteText := fun r =>
  match joinLines r.rest r.line with
  | (rest, line) => .ok (rest.takeWhile fits) { r with rest := rest.dropWhile fits, line }

/-- Puts a token back. -/
def unread (t : Token) : Parse Unit := modify fun r => { r with pushed := some t }

/-- The line that reading has reached. -/
def line : Parse Nat := return (← get).line

/-- Refuses a token. -/
def unexpected {α : Type} (found : Token) (wanted : Option Token) : Parse α :=
  throw (.unexpected found.shown (wanted.map Token.shown))

/-- Takes everything up to the quote that ends it. -/
def singleQuoted : Parse Word := fun r =>
  let inside := r.rest.takeWhile (· ≠ '\'')
  match r.rest.drop inside.length with
  | [] => .error .unterminatedQuotes { r with rest := [], line := r.line + inside.count '\n' }
  | _ :: rest =>
    .ok (.mark :: inside.map fun c => .char c true) { r with rest, line := r.line + inside.count '\n' }

/-- The operator that begins with a character, if one does. -/
def operator? (c : Char) : Parse (Option Token) := do
  let double (one two : String) : Parse (Option Token) := do
    take
    if ← takeIf c then return some (.operator two) else return some (.operator one)
  match c with
  | '\n' =>
    take
    return some .newline
  | '&' => double "&" "&&"
  | '|' => double "|" "||"
  | ';' => double ";" ";;"
  | '(' =>
    take
    return some (.operator "(")
  | ')' =>
    take
    return some (.operator ")")
  | _ => return none

/-- The redirection operator that begins with a character. -/
def redirect (descriptor : Option Nat) (c : Char) : Parse Token := do
  take
  let next ← peek
  if c = '>' then
    match next with
    | some '>' => take; return .redirect descriptor ">>"
    | some '|' => take; return .redirect descriptor ">|"
    | some '&' => take; return .redirect descriptor ">&"
    | _ => return .redirect descriptor ">"
  else
    match next with
    | some '<' =>
      take
      if ← takeIf '-' then return .redirect descriptor "<<-"
      else return .redirect descriptor "<<"
    | some '&' => take; return .redirect descriptor "<&"
    | some '>' => take; return .redirect descriptor "<>"
    | _ => return .redirect descriptor "<"

/-- Notes that a here-document is asked for, and answers its number. -/
def awaitDocument (delimiter : Word) (stripTabs : Bool) : Parse Nat := fun r =>
  let number := r.documents.size
  .ok number
    { r with
      documents := r.documents.push []
      awaited := r.awaited ++
        [⟨number, Word.literal delimiter, Word.hasQuotes delimiter, stripTabs⟩] }

end Parse

/-- The first line of a text, and what follows it; none at the end. -/
def splitLine : ByteText → Option (ByteText × ByteText)
  | [] => none
  | text => some (text.takeWhile (· ≠ '\n'), (text.dropWhile (· ≠ '\n')).drop 1)

/-- Whether a line ends in a backslash that is not itself behind one. -/
def endsInJoint (line : ByteText) : Bool :=
  (line.reverse.takeWhile (· = '\\')).length % 2 == 1

/-- The lines of a here-document up to its delimiter, how many lines they are, and what follows.  In a
text with expansions a line that is joined to the one before it cannot be the delimiter. -/
def documentLines (a : Awaited) : Nat → Bool → ByteText → ByteText × Nat × ByteText
  | 0, _, rest => ([], 0, rest)
  | n + 1, joint, text =>
    match splitLine text with
    | none => ([], 0, [])
    | some (line, rest) =>
      let line := if a.stripTabs then line.dropWhile (· = '\t') else line
      if line = a.delimiter ∧ ¬ joint then ([], 1, rest)
      else
        let joint := !a.quoted && endsInJoint line
        let (more, count, rest) := documentLines a n joint rest
        (line ++ '\n' :: more, count + 1, rest)

end Script

end ValueShell
