/-
  Expanding words.

  Every part of a word becomes pieces: characters that remember whether they were quoted and whether
  they may be split.  What is done with the pieces depends on where the word stands; the last section
  has one function for each such place.
-/
import ValueShell.Script.Arithmetic
import ValueShell.Script.Fields
import ValueShell.Script.Process

namespace ValueShell

namespace Script

namespace Purpose

/-- A word that becomes fields. -/
def field : Purpose := ⟨true, false, true, false⟩

/-- A word that stays one text. -/
def single : Purpose := ⟨false, false, true, false⟩

/-- A value that is assigned. -/
def value : Purpose := ⟨false, false, true, true⟩

/-- A text in which nothing is special but expansions. -/
def document : Purpose := ⟨false, false, false, false⟩

end Purpose

namespace Interpreter

variable (i : Interpreter)

/-! ## Parameters -/

/-- The text of the options that are set. -/
def optionText (s : Shell) : ByteText :=
  ['e', 'f', 'I', 'i', 'm', 'n', 's', 'x', 'v', 'V', 'E', 'C', 'a', 'b', 'u'].filter s.hasOption

/-- A number as text. -/
def numberText (n : Nat) : ByteText := (toString n).toList

/-- The text of a parameter that has one text. -/
def parameterText? (s : Shell) (name : String) : Option ByteText :=
  match name with
  | "$" => some (numberText s.root)
  | "?" => some (numberText s.status)
  | "#" => some (numberText s.args.length)
  | "!" => s.lastJob.map numberText
  | "-" => some (optionText s)
  | _ =>
    match name.toList with
    | c :: _ =>
      if c.isDigit then
        match Numeral.digits? 10 0 name.toList with
        | some 0 => some s.name
        | some n => s.args[n - 1]?
        | none => none
      else s.value? name
    | [] => none

/-- Whether a parameter stands for all arguments. -/
def isAll (name : String) : Bool := name == "@" || name == "*"

/-- All arguments as one text, with the first character of `IFS` between them. -/
def joinedArguments (s : Shell) : ByteText :=
  match s.separators.head? with
  | some c => joinWith c s.args
  | none => s.args.flatten

/-- Whether the arguments are to be fields of their own. -/
def keepsArgumentsApart (p : Purpose) (name : String) (quoted : Bool) : Bool :=
  quoted && p.fields && name == "@"

/-- The pieces of texts that are fields of their own. -/
def apartPieces (texts : List ByteText) : List Piece :=
  match texts.map Piece.quotedText with
  | [] => []
  | first :: others => first ++ (others.flatMap fun text => .border :: text) ++ [.kept]

/-- The pieces of all arguments. -/
def argumentPieces (s : Shell) (p : Purpose) (name : String) (quoted : Bool) : List Piece :=
  if quoted then
    if keepsArgumentsApart p name quoted then apartPieces s.args
    else Piece.quotedText (joinedArguments s)
  else if p.fields then
    Piece.softText (joinWith (s.separators.head?.getD '\x00') s.args)
  else Piece.softText (joinedArguments s)

/-- The pieces of a text. -/
def textPieces (text : ByteText) (quoted : Bool) : List Piece :=
  if quoted then Piece.quotedText text else Piece.softText text

/-- The text of a parameter, if it is set. -/
def parameter? (s : Shell) (name : String) : Option ByteText :=
  if isAll name then some (joinedArguments s) else parameterText? s name

/-- The pieces of a parameter that is used as it is. -/
def plainPieces (s : Shell) (p : Purpose) (name : String) (quoted : Bool) : List Piece :=
  if isAll name then argumentPieces s p name quoted
  else textPieces ((parameterText? s name).getD []) quoted

/-- The pieces of a parameter of which something is cut off: of arguments that are to be fields, in a row,
and of one text otherwise. -/
def cutPieces (s : Shell) (p : Purpose) (name : String) (quoted : Bool)
    (cut : List ByteText → List ByteText) : List Piece :=
  if p.fields && isAll name && (!quoted || name == "@") then
    if quoted then apartPieces (cut s.args)
    else Piece.softText (joinWith '\x00' (cut s.args))
  else textPieces (cut [(parameter? s name).getD []]).flatten quoted

/-- Fails if a parameter has to be set and is not. -/
def demand (name : String) : Sh Unit := do
  let s ← get
  if s.hasOption 'u' && !isAll name && (parameterText? s name).isNone then
    Sh.fail (name ++ ": parameter not set")

/-- The pieces of a parameter. -/
def expandParameter (p : Purpose) (name : String) (use : Use) (word : Word) (quoted : Bool) :
    Sh (List Piece) := do
  let inside : Purpose := { p with inBraces := true, tilde := true, colons := false }
  let isMissing (s : Shell) (nullToo : Bool) : Bool :=
    match parameter? s name with
    | none => true
    | some text => nullToo && text.isEmpty
  match use with
  | .unknown => Sh.fail "Bad substitution"
  | .plain =>
    demand name
    return plainPieces (← get) p name quoted
  | .length =>
    demand name
    let s ← get
    let size := if isAll name then (s.args.map List.length).foldl (· + ·) (s.args.length - 1)
      else ((parameterText? s name).getD []).length
    return textPieces (numberText size) quoted
  | .orElse nullToo =>
    if isMissing (← get) nullToo then i.expand inside word
    else return plainPieces (← get) p name quoted
  | .ifSet nullToo =>
    if isMissing (← get) nullToo then return [] else i.expand inside word
  | .orAssign nullToo =>
    if isMissing (← get) nullToo then
      let value := Piece.text (← i.expand { inside with fields := false } word)
      if !isName name.toList then Sh.fail (name ++ ": bad variable name")
      Sh.assign name value false
    return plainPieces (← get) p name quoted
  | .orFail nullToo =>
    if isMissing (← get) nullToo then
      let message := Piece.text (← i.expand { inside with fields := false } word)
      let usual := "parameter not set" ++ (if nullToo then " or null" else "")
      Sh.fail (name ++ ": " ++ (if word.isEmpty then usual else Sh.shown message))
    else return plainPieces (← get) p name quoted
  | .dropFirst longest =>
    demand name
    let pattern := (Piece.marked (← i.expand { inside with fields := false } word)).pattern
    return cutPieces (← get) p name quoted (pattern.dropFirstOf longest)
  | .dropLast longest =>
    demand name
    let pattern := (Piece.marked (← i.expand { inside with fields := false } word)).pattern
    return cutPieces (← get) p name quoted (pattern.dropLastOf longest)

/-! ## Substitutions -/

/-- The number in a variable. -/
def readInteger (name : String) : Sh Int := do
  demand name
  let text := (parameterText? (← get) name).getD []
  match Arithmetic.readSigned? text with
  | some n => return n
  | none => Sh.fail ("Illegal number: " ++ Sh.shown text)

/-- The value of an arithmetic expression. -/
def evaluateArithmetic (text : ByteText) : Sh Int := do
  Arithmetic.evaluate
    { read := readInteger
      write := fun name n => Sh.assign name (toString n).toList false
      fail := fun problem =>
        Sh.fail ("arithmetic expression: " ++ problem.message ++ ": \"" ++ Sh.shown text ++ "\"") }
    text

/-- The text without the line ends at its end. -/
def withoutLineEnds (text : ByteText) : ByteText := (text.reverse.dropWhile (· = '\n')).reverse

/-- The output of a command, run in a process of its own. -/
def captured (body : Command) : Sh ByteText := do
  let id ← modifyGet fun s =>
    let (id, system) := s.system.openTarget (.stream [] [])
    (id, { s with system })
  let (_, status) ← i.inProcess (i.command body ⟨false, true⟩) fun s => s.setDescriptor 1 (some id)
  Sh.reportSignal status
  modify fun s => { s with substitutionStatus := status.code }
  return withoutLineEnds ((ByteText.ofBytes ((← get).system.left id)).filter (· ≠ '\x00'))

/-! ## Words -/

/-- The directory that a tilde with a name behind it stands for. -/
def homeOf (s : Shell) (name : ByteText) : Option ByteText :=
  if name.isEmpty then s.value? "HOME"
  else if name = "root".toList then some "/root".toList
  else none

/-- Splits off a name behind a tilde: plain characters up to a slash, or a colon where it counts. -/
def tildeName? (colons : Bool) (w : Word) : Option (ByteText × Word) :=
  let ends (c : Char) : Bool := c == '/' || (colons && c == ':')
  let name := w.takeWhile fun
    | .char c false => !ends c
    | _ => false
  let rest := w.drop name.length
  match rest with
  | [] => some (Word.literal name, rest)
  | .char _ false :: _ => some (Word.literal name, rest)
  | _ => none

/-- The pieces of one part. -/
def expandPart (p : Purpose) : Part → Sh (List Piece)
  | .char c quoted => return [.char c quoted (p.fields && p.inBraces && !quoted)]
  | .mark => return [.mark]
  | .parameter name use word quoted => expandParameter i p name use word quoted
  | .substitution body quoted => return textPieces (← captured i body) quoted
  | .arithmetic expression quoted => do
    let text := Piece.text (← i.expand Purpose.document expression)
    let n ← evaluateArithmetic text
    return textPieces (toString n).toList quoted

/-- The pieces of a word.  `start` says that a tilde here stands for a directory; `turns` bounds how
many parts there are. -/
def expandParts (p : Purpose) : Nat → Bool → Word → Sh (List Piece)
  | 0, _, _ => return []
  | _ + 1, _, [] => return []
  | turns + 1, start, part :: rest => do
    let found : Option (ByteText × Word) ← match part with
      | .char '~' false =>
        if start then do
          let s ← get
          pure ((tildeName? p.colons rest).bind fun (name, rest) =>
            (homeOf s name).map fun home => (home, rest))
        else pure none
      | _ => pure none
    match found with
    | some (home, rest) => return Piece.quotedText home ++ (← expandParts p turns false rest)
    | none =>
      let start := match part with
        | .char ':' false => p.colons
        | _ => false
      let pieces ← expandPart i p part
      return pieces ++ (← expandParts p turns start rest)

/-- The pieces of a word. -/
def expandWord (p : Purpose) (w : Word) : Sh (List Piece) := expandParts i p (w.length + 1) p.tilde w

/-! ## Where words stand -/

/-- The fields of a word, with the files that they name. -/
def fields (w : Word) : Sh (List ByteText) := do
  let pieces ← i.expand Purpose.field w
  let s ← get
  let fields := splitFields s.separators pieces
  if s.hasOption 'f' then return fields.map Marked.text
  else return fields.flatMap (namedPaths s.system.files)

/-- The one text of a word. -/
def single (w : Word) : Sh ByteText := return Piece.text (← i.expand Purpose.single w)

/-- The text of a value that is assigned. -/
def assigned (w : Word) : Sh ByteText := return Piece.text (← i.expand Purpose.value w)

/-- The pattern that a word is. -/
def patternOf (w : Word) : Sh Pattern :=
  return (Piece.marked (← i.expand Purpose.single w)).pattern

/-- The text of a here-document. -/
def documentText (w : Word) : Sh ByteText := return Piece.text (← i.expand Purpose.document w)

end Interpreter

end Script

end ValueShell
