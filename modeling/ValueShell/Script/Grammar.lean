/-
  Reading a script: words and commands.

  The two depend on each other, for a command can stand inside a word, so all rules are one circle;
  `n` bounds how deep they lead, and a bound in proportion to the length of the text is never
  reached.  `Within` says what a word is read inside of, which decides what ends it and which of its
  characters are quoted.
-/
import ValueShell.Script.Reader

namespace ValueShell

namespace Script

/-- What a part of a word is read inside of. -/
inductive Within
  /-- nothing: a blank or an operator ends the word -/
  | bare
  /-- a here-document's delimiter, in which nothing is expanded -/
  | delimiter
  | quotes
  /-- `${name…}` outside quotes -/
  | braces
  /-- `${name…}` in quotes -/
  | quotedBraces
  /-- `$((…))`, with the number of open parentheses -/
  | arithmetic (depth : Nat)
  | document
deriving DecidableEq, Repr, Inhabited

namespace Within

/-- Whether characters in there are quoted. -/
def isQuoted : Within → Bool
  | bare => false
  | delimiter => false
  | braces => false
  | _ => true

/-- Whether a backslash before `c` quotes it, in a quoted text. -/
def escapes (w : Within) (c : Char) : Bool :=
  c == '\\' || c == '`' || c == '$' || (c == '"' && w != document) || (c == '\x7d' && w == quotedBraces)

/-- Whether `c` ends a word in there and is left to be read. -/
def separates (w : Within) (c : Char) : Bool :=
  (w == bare || w == delimiter) && [' ', '\t', '\n', ';', '&', '|', '(', ')', '<', '>'].contains c

/-- Whether a parameter's alternative text inside of this is read as quoted. -/
def inner (w : Within) : Within := if w.isQuoted then quotedBraces else braces

end Within

/-- What is looked for besides words. -/
structure Expect where
  reserved : Bool
  aliases : Bool
  /-- line ends count as blanks -/
  lines : Bool
deriving DecidableEq, Repr, Inhabited

/-- Only words and operators. -/
def Expect.plain : Expect := ⟨false, false, false⟩

/-- The beginning of a command. -/
def Expect.command : Expect := ⟨true, true, false⟩

/-- The beginning of a command, on this or a later line. -/
def Expect.commandBelow : Expect := ⟨true, true, true⟩

/-- The use that an operator inside braces stands for; `nullToo` if a colon stood before it. -/
def useOf (nullToo : Bool) (c : Char) : Option Use :=
  match c with
  | '-' => some (.orElse nullToo)
  | '=' => some (.orAssign nullToo)
  | '?' => some (.orFail nullToo)
  | '+' => some (.ifSet nullToo)
  | _ => none

/-- The mode in which an operator opens a file. -/
def openMode? : String → Option OpenMode
  | "<" => some .read
  | ">" => some .write
  | ">|" => some .overwrite
  | ">>" => some .append
  | "<>" => some .readWrite
  | _ => none

/-- The text of a substitution in backquotes, with what follows; none if no quote ends it. -/
def backquotedText (inQuotes : Bool) : ByteText → Option (ByteText × ByteText)
  | [] => none
  | '`' :: rest => some ([], rest)
  | '\\' :: '\n' :: rest => backquotedText inQuotes rest
  | '\\' :: c :: rest =>
    let kept := if c == '\\' || c == '`' || c == '$' || (inQuotes && c == '"') then [c] else ['\\', c]
    (backquotedText inQuotes rest).map fun (text, rest) => (kept ++ text, rest)
  | c :: rest => (backquotedText inQuotes rest).map fun (text, rest) => (c :: text, rest)

/-- Whether quotes hold nothing but `$@`, which may stand for no field at all. -/
def isLoneArguments : Word → Bool
  | [.parameter "@" .plain [] _] => true
  | _ => false

/-- What a chain of commands on one line is. -/
def Command.followedBy (first second : Command) : Command :=
  match first with
  | .nothing => second
  | _ => .sequence first second

/-- A command with redirections behind it. -/
def Command.withRedirections (c : Command) (line : Nat) : List Redirection → Command
  | [] => c
  | redirections =>
    match c with
    | .subshell line body _ => .subshell line body redirections
    | _ => .redirected line c redirections

namespace Parse

mutual

/-- The parts of a word from here to its end; `parts` are those before, in reverse. -/
def wordParts : Nat → Within → List Part → Parse Word
  | 0, _, _ => throw .nestedTooDeep
  | n + 1, w, parts => do
    match ← peek with
    | none =>
      match w with
      | .bare | .delimiter | .document => return parts.reverse
      | .quotes | .quotedBraces => throw .unterminatedQuotes
      | .braces => throw .missingBrace
      | .arithmetic _ => throw .missingParentheses
    | some c =>
      if w.separates c then return parts.reverse
      take
      match c, w with
      | '\\', _ =>
        match ← peekRaw with
        | none => wordParts n w (.char '\\' true :: parts)
        | some d =>
          take
          if w.isQuoted && !w.escapes d then
            wordParts n w (.char d true :: .char '\\' true :: parts)
          else wordParts n w (.char d true :: parts)
      | '"', .quotes => return parts.reverse
      | '"', .quotedBraces =>
        let inside ← wordParts n .quotes []
        wordParts n w (inside.reverse ++ parts)
      | '\x7d', .braces => return parts.reverse
      | '\x7d', .quotedBraces => return parts.reverse
      | '(', .arithmetic depth => wordParts n (.arithmetic (depth + 1)) (.char c true :: parts)
      | ')', .arithmetic 0 =>
        if ← takeIf ')' then return parts.reverse
        else wordParts n w (.char c true :: parts)
      | ')', .arithmetic (depth + 1) => wordParts n (.arithmetic depth) (.char c true :: parts)
      | '$', .delimiter => wordParts n w (.char c false :: parts)
      | '`', .delimiter => wordParts n w (.char c false :: parts)
      | '$', _ =>
        let part ← dollar n w
        wordParts n w (part :: parts)
      | '`', _ =>
        let part ← backquoted n w
        wordParts n w (part :: parts)
      | '\'', _ =>
        if w.isQuoted then wordParts n w (.char c true :: parts)
        else
          let inside ← singleQuoted
          wordParts n w (inside.reverse ++ parts)
      | '"', _ =>
        if w.isQuoted then wordParts n w (.char c true :: parts)
        else
          let inside ← wordParts n .quotes []
          if isLoneArguments inside then wordParts n w (inside.reverse ++ parts)
          else wordParts n w (inside.reverse ++ .mark :: parts)
      | _, _ => wordParts n w (.char c w.isQuoted :: parts)

/-- What follows a dollar sign. -/
def dollar : Nat → Within → Parse Part
  | 0, _ => throw .nestedTooDeep
  | n + 1, w => do
    let quoted := w.isQuoted
    match ← peek with
    | none => return .char '$' quoted
    | some c =>
      if c = '(' then
        take
        if ← takeIf '(' then
          return .arithmetic (← wordParts n (.arithmetic 0) []) quoted
        else
          let body ← list n false true .nothing
          let t ← token n .plain
          if t.isOperator ")" then return .substitution body quoted
          else unexpected t (some (.operator ")"))
      else if c = '\x7b' then
        take
        braced n w
      else if isNameStart c then
        return .parameter (String.ofList (← takeWhile isNameChar)) .plain [] quoted
      else if c.isDigit || specialParameters.contains c then
        take
        return .parameter (String.ofList [c]) .plain [] quoted
      else return .char '$' quoted

/-- What follows `${`. -/
def braced : Nat → Within → Parse Part
  | 0, _ => throw .nestedTooDeep
  | n + 1, w => do
    let quoted := w.isQuoted
    match ← peek with
    | none => throw (if quoted then .unterminatedQuotes else .missingBrace)
    | some c =>
      if isNameStart c then
        let name ← takeWhile isNameChar
        bracedUse n w (String.ofList name)
      else if c.isDigit then
        let name ← takeWhile Char.isDigit
        bracedUse n w (String.ofList name)
      else if c = '#' then
        take
        match ← peek with
        | some d =>
          if isNameStart d || d.isDigit then
            let name ← takeWhile (if d.isDigit then Char.isDigit else isNameChar)
            let rest ← wordParts n w.inner []
            return .parameter (String.ofList name) .length rest quoted
          else
            let before ← get
            take
            if d ≠ '\x7d' && (← peek) = some '\x7d' then
              let rest ← wordParts n w.inner []
              let use := if specialParameters.contains d then .length else .unknown
              return .parameter (String.ofList [d]) use rest quoted
            else
              set before
              bracedUse n w "#"
        | none => bracedUse n w "#"
      else if specialParameters.contains c then
        take
        bracedUse n w (String.ofList [c])
      else
        if c ≠ '\x7d' then swallow
        let rest ← wordParts n w.inner []
        return .parameter "" .unknown rest quoted

/-- What follows the name in `${name`. -/
def bracedUse : Nat → Within → String → Parse Part
  | 0, _, _ => throw .nestedTooDeep
  | n + 1, w, name => do
    let quoted := w.isQuoted
    let withWord (use : Use) (inside : Within) : Parse Part := do
      return .parameter name use (← wordParts n inside []) quoted
    match ← peek with
    | some '\x7d' =>
      take
      return .parameter name .plain [] quoted
    | some ':' =>
      take
      match ← peek with
      | some '\x7d' =>
        take
        return .parameter name .plain [] quoted
      | some c =>
        match useOf true c with
        | some use =>
          take
          withWord use w.inner
        | none =>
          swallow
          withWord .unknown w.inner
      | none => withWord .unknown w.inner
    | some '%' =>
      take
      let longest ← takeIf '%'
      withWord (.dropLast longest) .braces
    | some '#' =>
      take
      let longest ← takeIf '#'
      withWord (.dropFirst longest) .braces
    | some c =>
      match useOf false c with
      | some use =>
        take
        withWord use w.inner
      | none =>
        swallow
        withWord .unknown w.inner
    | none => withWord .unknown w.inner

/-- What follows a backquote. -/
def backquoted : Nat → Within → Parse Part
  | 0, _ => throw .nestedTooDeep
  | n + 1, w => do
    let r ← get
    match backquotedText w.isQuoted r.rest with
    | none =>
      set { r with rest := [], line := r.line + r.rest.count '\n' }
      throw .unterminatedBackquotes
    | some (text, rest) =>
      set { r with rest := text, pushed := none, line := 1 }
      let body ← list n false true .nothing
      modify fun inner =>
        { inner with
          rest, pushed := none
          line := r.line + (r.rest.take (r.rest.length - rest.length)).count '\n' }
      return .substitution body w.isQuoted

/-- The next token. -/
def token : Nat → Expect → Parse Token
  | 0, _ => throw .nestedTooDeep
  | n + 1, e => do
    let opensAlias ← afterAlias
    let t ← nextToken n
    match t with
    | .newline =>
      if e.lines then
        documents n
        token n e
      else return t
    | .word w =>
      match Word.plain? w with
      | none => return t
      | some text =>
        let name := String.ofList text
        if e.reserved && reservedWords.contains name then return .reserved name
        let r ← get
        match if e.aliases || opensAlias then Table.find? r.aliases name else none with
        | none => return t
        | some meaning =>
          let stillOpen := r.openAliases.filter fun a => a.following < r.rest.length
          if stillOpen.any fun a => a.name == name then return t
          let opensNext := (meaning.getLast?.map fun c => c == ' ' || c == '\t').getD false
          set { r with
            rest := meaning ++ ' ' :: r.rest
            openAliases := ⟨name, r.rest.length, opensNext⟩ :: stillOpen }
          token n e
    | _ => return t

/-- The token that was put back, or the next one of the text. -/
def nextToken : Nat → Parse Token
  | 0 => throw .nestedTooDeep
  | n + 1 => do
    match (← get).pushed with
    | some t =>
      modify fun r => { r with pushed := none }
      return t
    | none =>
      blanks
      match ← peek with
      | none => return .ending
      | some c =>
        match ← operator? c with
        | some t => return t
        | none =>
          let w ← wordParts n .bare []
          match w, ← peek with
          | [], some '<' => redirect none '<'
          | [], some '>' => redirect none '>'
          | [.char d false], some '<' =>
            if d.isDigit then redirect (some (d.toNat - '0'.toNat)) '<' else return .word w
          | [.char d false], some '>' =>
            if d.isDigit then redirect (some (d.toNat - '0'.toNat)) '>' else return .word w
          | _, _ => return .word w

/-- Reads the texts of the here-documents that were asked for. -/
def documents : Nat → Parse Unit
  | 0 => throw .nestedTooDeep
  | n + 1 => do
    match (← get).awaited with
    | [] => return ()
    | a :: awaited => do
      let r ← get
      let (text, count, rest) := documentLines a r.rest.length false r.rest
      let body : Word ←
        if a.quoted then pure (text.map fun c => .char c true)
        else do
          set { r with rest := text, pushed := none }
          wordParts n .document []
      modify fun inner =>
        { inner with
          rest, awaited, pushed := r.pushed, line := r.line + count
          documents := inner.documents.setIfInBounds a.number body }
      documents n

/-- A list of commands; `before` are those read so far.  A list at the top ends with the line. -/
def list : Nat → Bool → Bool → Command → Parse Command
  | 0, _, _, _ => throw .nestedTooDeep
  | n + 1, top, mayEnd, before => do
    let t ← token n (if top then .command else .commandBelow)
    match t with
    | .newline =>
      documents n
      return before
    | .ending =>
      documents n
      unread .ending
      return before
    | _ =>
      unread t
      if mayEnd && !top && t.endsList then return before
      let line ← line
      let c ← andOr n
      let t ← token n .plain
      let c := if t.isOperator "&" then .background line c else c
      let all := before.followedBy c
      match t with
      | .ending =>
        documents n
        unread .ending
        return all
      | .newline =>
        unread t
        list n top true all
      | _ =>
        if t.isOperator "&" || t.isOperator ";" then list n top true all
        else if top then unexpected t none
        else
          unread t
          return all

/-- Pipelines joined by `&&` and `||`. -/
def andOr : Nat → Parse Command
  | 0 => throw .nestedTooDeep
  | n + 1 => do
    let first ← pipeline n
    andOrTail n first

/-- The rest of a chain of pipelines. -/
def andOrTail : Nat → Command → Parse Command
  | 0, _ => throw .nestedTooDeep
  | n + 1, first => do
    let t ← token n .plain
    if t.isOperator "&&" || t.isOperator "||" then
      unreadNext n .commandBelow
      let second ← pipeline n
      andOrTail n (if t.isOperator "&&" then .both first second else .either first second)
    else
      unread t
      return first

/-- Looks at the next token with the given expectation and puts it back. -/
def unreadNext : Nat → Expect → Parse Unit
  | 0, _ => throw .nestedTooDeep
  | n + 1, e => do unread (← token n e)

/-- Commands joined by `|`, possibly negated. -/
def pipeline : Nat → Parse Command
  | 0 => throw .nestedTooDeep
  | n + 1 => do
    let t ← token n .plain
    let negated := t.isReserved "!"
    if negated then unreadNext n .command else unread t
    let first ← command n
    let stages ← stages n [first]
    let c := match stages with
      | [only] => only
      | _ => .pipeline stages
    return if negated then .negation c else c

/-- The stages of a pipeline; `before` are those read so far, in reverse. -/
def stages : Nat → List Command → Parse (List Command)
  | 0, _ => throw .nestedTooDeep
  | n + 1, before => do
    let t ← token n .plain
    if t.isOperator "|" then
      unreadNext n .commandBelow
      let next ← command n
      stages n (next :: before)
    else
      unread t
      return before.reverse

/-- One command with the redirections behind it. -/
def command : Nat → Parse Command
  | 0 => throw .nestedTooDeep
  | n + 1 => do
    let t ← token n .plain
    let line ← line
    match t with
    | .word _ | .redirect .. =>
      unread t
      simple n line [] [] [] true
    | .operator "(" =>
      let body ← list n false false .nothing
      close n (.operator ")")
      redirections n (.subshell line body []) line []
    | .reserved "\x7b" =>
      let body ← list n false false .nothing
      close n (.reserved "\x7d")
      redirections n body line []
    | .reserved "if" =>
      let c ← conditional n
      redirections n c line []
    | .reserved "while" =>
      let c ← repeated n true
      redirections n c line []
    | .reserved "until" =>
      let c ← repeated n false
      redirections n c line []
    | .reserved "for" =>
      let c ← forLoop n line
      redirections n c line []
    | .reserved "case" =>
      let c ← choice n line
      redirections n c line []
    | _ => unexpected t none

/-- Takes the token that ends a command. -/
def close : Nat → Token → Parse Unit
  | 0, _ => throw .nestedTooDeep
  | n + 1, wanted => do
    let t ← token n .plain
    match t, wanted with
    | .operator found, .operator text =>
      if found = text then return () else unexpected t (some wanted)
    | .reserved found, .reserved text =>
      if found = text then return () else unexpected t (some wanted)
    | _, _ => unexpected t (some wanted)

/-- The redirections behind a command; `before` are those read so far, in reverse. -/
def redirections : Nat → Command → Nat → List Redirection → Parse Command
  | 0, _, _, _ => throw .nestedTooDeep
  | n + 1, c, line, before => do
    let t ← token n .command
    match t with
    | .redirect descriptor operator =>
      let found ← redirection n descriptor operator
      redirections n c line (found :: before)
    | _ =>
      unread t
      return c.withRedirections line before.reverse

/-- The redirection that an operator begins. -/
def redirection : Nat → Option Nat → String → Parse Redirection
  | 0, _, _ => throw .nestedTooDeep
  | n + 1, descriptor, operator => do
    let usual := if operator.startsWith "<" then 0 else 1
    let descriptor := descriptor.getD usual
    if operator = "<<" ∨ operator = "<<-" then
      blanks
      let w ← wordParts n .delimiter []
      if w.isEmpty then unexpected (← token n .plain) none
      return .document descriptor (← awaitDocument w (operator == "<<-"))
    else
      match ← token n .plain with
      | .word w =>
        match openMode? operator with
        | some mode => return .file descriptor mode w
        | none => return .copy descriptor w
      | t => unexpected t none

/-- The branches of `if` or `elif`. -/
def conditional : Nat → Parse Command
  | 0 => throw .nestedTooDeep
  | n + 1 => do
    let test ← list n false false .nothing
    close n (.reserved "then")
    let yes ← list n false false .nothing
    let t ← token n .plain
    if t.isReserved "elif" then
      let no ← conditional n
      return .conditional test yes no
    else if t.isReserved "else" then
      let no ← list n false false .nothing
      close n (.reserved "fi")
      return .conditional test yes no
    else if t.isReserved "fi" then return .conditional test yes .nothing
    else unexpected t (some (.reserved "fi"))

/-- The parts of `while` or `until`. -/
def repeated : Nat → Bool → Parse Command
  | 0, _ => throw .nestedTooDeep
  | n + 1, wanted => do
    let test ← list n false false .nothing
    close n (.reserved "do")
    let body ← list n false false .nothing
    close n (.reserved "done")
    return .repeated wanted test body

/-- The parts of `for`. -/
def forLoop : Nat → Nat → Parse Command
  | 0, _ => throw .nestedTooDeep
  | n + 1, line => do
    let name ← match ← token n .plain with
      | .word w =>
        match Word.plain? w with
        | some text => if isName text then pure (String.ofList text) else throw .badLoopVariable
        | none => throw .badLoopVariable
      | _ => throw .badLoopVariable
    let t ← token n .commandBelow
    let words ←
      if t.isReserved "in" then do
        let (words, last) ← loopWords n []
        match last with
        | .newline => documents n
        | _ => if last.isOperator ";" then pure () else unexpected last none
        pure words
      else do
        if !t.isOperator ";" then unread t
        pure [[.parameter "@" .plain [] true]]
    unreadNext n .commandBelow
    close n (.reserved "do")
    let body ← list n false false .nothing
    close n (.reserved "done")
    return .each line name words body

/-- The words up to another token, and that token. -/
def loopWords : Nat → List Word → Parse (List Word × Token)
  | 0, _ => throw .nestedTooDeep
  | n + 1, before => do
    match ← token n .plain with
    | .word w => loopWords n (w :: before)
    | t => return (before.reverse, t)

/-- The parts of `case`. -/
def choice : Nat → Nat → Parse Command
  | 0, _ => throw .nestedTooDeep
  | n + 1, line => do
    let w ← match ← token n .plain with
      | .word w => pure w
      | t => unexpected t (some (.word []))
    let t ← token n .commandBelow
    if !t.isReserved "in" then unexpected t (some (.reserved "in"))
    let clauses ← clauses n []
    return .choice line w clauses

/-- The clauses of `case` with its end; `before` are those read so far, in reverse. -/
def clauses : Nat → List (List Word × Command) → Parse (List (List Word × Command))
  | 0, _ => throw .nestedTooDeep
  | n + 1, before => do
    let t ← token n ⟨true, false, true⟩
    if t.isReserved "esac" then return before.reverse
    let first ← if t.isOperator "(" then token n .plain else pure t
    let patterns ← patterns n first []
    let body ← list n false true .nothing
    let found := (patterns, body) :: before
    let t ← token n ⟨true, false, true⟩
    if t.isReserved "esac" then return found.reverse
    else if t.isOperator ";;" then clauses n found
    else unexpected t (some (.operator ";;"))

/-- The patterns of a clause, of which `t` is the first token; what is no word counts as an empty one. -/
def patterns : Nat → Token → List Word → Parse (List Word)
  | 0, _, _ => throw .nestedTooDeep
  | n + 1, t, before => do
    let w ← match t with
      | .word w => pure w
      | .reserved text => pure (Word.ofText text.toList)
      | _ => pure []
    let next ← token n .plain
    if next.isOperator "|" then
      let t ← token n .plain
      patterns n t (w :: before)
    else if next.isOperator ")" then return (w :: before).reverse
    else unexpected next (some (.operator ")"))

/-- A simple command, or the definition of a function.  The lists hold what has been read, in
reverse; `atStart` says that no word has been read that is not an assignment. -/
def simple : Nat → Nat → List (String × Word) → List Word → List Redirection → Bool →
    Parse Command
  | 0, _, _, _, _, _ => throw .nestedTooDeep
  | n + 1, line, assignments, words, redirections, atStart => do
    let finish : Parse Command :=
      return .simple line assignments.reverse words.reverse redirections.reverse
    match ← token n ⟨false, atStart, false⟩ with
    | .word w =>
      match if atStart then Word.assignment? w else none with
      | some a => simple n line (a :: assignments) words redirections true
      | none => simple n line assignments (w :: words) redirections false
    | .redirect descriptor operator =>
      let found ← redirection n descriptor operator
      simple n line assignments words (found :: redirections) atStart
    | t =>
      match words, assignments, redirections with
      | [w], [], [] =>
        if t.isOperator "(" then
          close n (.operator ")")
          match Word.plain? w with
          | none => throw .badFunctionName
          | some text =>
            let name := String.ofList text
            if !isName text || specialBuiltins.contains name then throw .badFunctionName
            unreadNext n .commandBelow
            return .function name (← command n)
        else
          unread t
          finish
      | _, _, _ =>
        unread t
        finish

end

end Parse

/-- Reads the commands on the next line of a script, with the lines that belong to them; none at the
end. -/
def readLine : Parse (Option Command) := do
  let r ← get
  let bound := 16 * (r.rest.length + 64)
  let t ← Parse.token bound .command
  match t with
  | .ending => return none
  | _ =>
    Parse.unread t
    some <$> Parse.list bound true false .nothing

end Script

end ValueShell
