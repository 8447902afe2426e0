/-
  The command language of scripts, as trees.

  A word is a list of parts: characters of the script, and expansions that become characters when
  the word is used.  A command is simple (assignments, words and redirections) or built from
  commands.  The text of a here-document is read after the line that asks for it, so a redirection
  holds only its number.
-/
import ValueShell.Text.Bytes

namespace ValueShell

namespace Script

/-- What `${name…}` makes of a parameter.  `nullToo` says that a parameter without text counts as one
that is not set. -/
inductive Use
  | plain
  | length
  | orElse (nullToo : Bool)
  | orAssign (nullToo : Bool)
  | orFail (nullToo : Bool)
  | ifSet (nullToo : Bool)
  | dropFirst (longest : Bool)
  | dropLast (longest : Bool)
  | unknown
deriving DecidableEq, Repr, Inhabited

/-- How a redirection opens its file. -/
inductive OpenMode
  | read
  | write
  /-- also where files must not be overwritten -/
  | overwrite
  | append
  | readWrite
deriving DecidableEq, Repr, Inhabited

mutual

/-- A part of a word.  What is `quoted` is neither split nor taken as a pattern. -/
inductive Part
  | char (c : Char) (quoted : Bool)
  /-- quotes stood here, so there is a field even if it is empty -/
  | mark
  | parameter (name : String) (use : Use) (word : List Part) (quoted : Bool)
  | substitution (body : Command) (quoted : Bool)
  | arithmetic (expression : List Part) (quoted : Bool)

/-- What is done to a descriptor. -/
inductive Redirection
  | file (descriptor : Nat) (mode : OpenMode) (path : List Part)
  | copy (descriptor : Nat) (source : List Part)
  | document (descriptor : Nat) (number : Nat)

/-- A command.  `line` is the line of the script on which it stands. -/
inductive Command
  | nothing
  | simple (line : Nat) (assignments : List (String × List Part)) (words : List (List Part))
      (redirections : List Redirection)
  | function (name : String) (body : Command)
  | pipeline (stages : List Command)
  | negation (command : Command)
  | both (first second : Command)
  | either (first second : Command)
  | sequence (first second : Command)
  | background (line : Nat) (command : Command)
  | subshell (line : Nat) (body : Command) (redirections : List Redirection)
  | redirected (line : Nat) (body : Command) (redirections : List Redirection)
  | conditional (test yes no : Command)
  /-- the body as long as the test's success is what is `wanted` -/
  | repeated (wanted : Bool) (test body : Command)
  | each (line : Nat) (name : String) (words : List (List Part)) (body : Command)
  | choice (line : Nat) (word : List Part) (clauses : List (List (List Part) × Command))

end

instance : Inhabited Command := ⟨.nothing⟩
instance : Inhabited Part := ⟨.mark⟩
instance : Inhabited Redirection := ⟨.document 0 0⟩

/-- The parts of a word. -/
abbrev Word := List Part

namespace Word

/-- The text of a word that is nothing but unquoted characters. -/
def plain? : Word → Option ByteText
  | [] => some []
  | .char c false :: rest => (plain? rest).map (c :: ·)
  | _ :: _ => none

/-- The text that a word has without expanding anything. -/
def literal : Word → ByteText
  | [] => []
  | .char c _ :: rest => c :: literal rest
  | _ :: rest => literal rest

/-- Whether quotes are part of a word. -/
def hasQuotes (w : Word) : Bool :=
  w.any fun
    | .mark => true
    | .char _ quoted => quoted
    | _ => false

/-- A word of plain text. -/
def ofText (text : ByteText) : Word := text.map fun c => .char c false

end Word

/-! ## Names -/

/-- Whether a name can begin with `c`. -/
def isNameStart (c : Char) : Bool := c.isAlpha || c == '_'

/-- Whether a name can go on with `c`. -/
def isNameChar (c : Char) : Bool := c.isAlphanum || c == '_'

/-- Whether a text is a name. -/
def isName : ByteText → Bool
  | [] => false
  | c :: cs => isNameStart c && cs.all isNameChar

/-- The parameters whose names are single marks. -/
def specialParameters : List Char := ['$', '@', '*', '#', '?', '!', '-']

/-- Whether a part is an unquoted character of a name. -/
def Word.isPlainNameChar : Part → Bool
  | .char c false => isNameChar c
  | _ => false

/-- A word that begins with a name and `=`, taken apart. -/
def Word.assignment? (w : Word) : Option (String × Word) :=
  match w.dropWhile isPlainNameChar with
  | .char '=' false :: value =>
    let name := literal (w.takeWhile isPlainNameChar)
    if isName name then some (String.ofList name, value) else none
  | _ => none

/-- The words with a meaning of their own where a command begins. -/
def reservedWords : List String :=
  ["!", "case", "do", "done", "elif", "else", "esac", "fi", "for", "if", "in", "then", "until",
   "while", "\x7b", "\x7d"]

/-- The builtins whose failure ends a script, and that no function can replace. -/
def specialBuiltins : List String :=
  [".", ":", "break", "continue", "eval", "exec", "exit", "export", "local", "readonly", "return",
   "set", "shift", "times", "trap", "unset"]

end Script

end ValueShell
