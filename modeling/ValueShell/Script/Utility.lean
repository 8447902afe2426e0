/-
  The programs of the system that scripts call.

  A program is a step of a process: it has arguments, an environment and descriptors, and ends with a
  status.  Of every program the plain uses are covered; an option that is not known is refused in the
  words in which the programs refuse options.
-/
import ValueShell.Script.Builtin.Files

namespace ValueShell

namespace Script

/-- A program as a step on its arguments. -/
abbrev Utility := List ByteText → Sh Nat

namespace Utility

/-! ## Complaints, options, input -/

/-- The name by which the program complains. -/
def ownName : Sh ByteText := return (← get).name

/-- Complains. -/
def warn (message : ByteText) : Sh Unit := do
  Sh.printError ((← ownName) ++ ": ".toList ++ message ++ ['\n'])

/-- Complains and answers a status. -/
def refuse {α : Type} (status : Nat) (message : ByteText) : Sh α := do
  warn message
  throw (.exit status)

/-- Complains about the arguments and answers a status. -/
def refuseUse {α : Type} (status : Nat) (message : ByteText) : Sh α := do
  refuse status (message ++ "\nTry '".toList ++ (← ownName) ++
    " --help' for more information.".toList)

/-- A name in a complaint. -/
def named (front : String) (path : ByteText) (e : FileError) : ByteText :=
  front.toList ++ '\'' :: path ++ ("': " ++ e.text).toList

/-- A path and what is wrong with it. -/
def plainly (path : ByteText) (e : FileError) : ByteText := path ++ (": " ++ e.text).toList

/-- The options of the arguments, wherever they stand, and the other arguments. -/
def options (known : String) (status : Nat) (args : List ByteText) :
    Sh (List (Char × ByteText) × List ByteText) := do
  let rec read : Nat → List ByteText → Except String (List (Char × ByteText) × List ByteText)
    | 0, args => .ok ([], args)
    | _ + 1, [] => .ok ([], [])
    | turns + 1, ['-', '-'] :: rest => let _ := turns; .ok ([], rest)
    | turns + 1, arg :: rest =>
      match arg with
      | '-' :: c :: letters =>
        if c = ':' ∨ ¬ known.toList.contains c then .error ("invalid option -- '" ++ Sh.shown [c] ++ "'")
        else if ((known.toList.dropWhile (· ≠ c)).drop 1).head? = some ':' then
          match if letters.isEmpty then rest else letters :: rest with
          | [] => .error ("option requires an argument -- '" ++ Sh.shown [c] ++ "'")
          | value :: rest => do
            let (more, rest) ← read turns rest
            return ((c, value) :: more, rest)
        else do
          let (more, rest) ← read turns (if letters.isEmpty then rest else ('-' :: letters) :: rest)
          return ((c, []) :: more, rest)
      | _ => do
        let (more, rest) ← read turns rest
        return (more, arg :: rest)
  match read ((args.map List.length).foldl (· + ·) args.length + 1) args with
  | .ok found => return found
  | .error message => refuseUse status message.toList

/-- Whether an option is among those that were given. -/
def has (options : List (Char × ByteText)) (c : Char) : Bool := options.any fun (d, _) => d == c

/-- Everything that is left on standard input. -/
def readInput : Sh ByteText := do
  let s ← get
  let bytes := s.left 0
  set (s.skipTo 0 [])
  return ByteText.ofBytes bytes

/-- What is read from a path; a hyphen stands for standard input. -/
def readPath (path : ByteText) : Sh (Except FileError ByteText) := do
  let s ← get
  if path = ['-'] then
    match (s.descriptor? 0).bind fun id => s.system.opened[id.index]? with
    | some .directory => return .error .isADirectory
    | _ => return .ok (← readInput)
  match s.node? path with
  | some (.directory _) => return .error .isADirectory
  | _ =>
    match s.openFile .read path with
    | .ok (id, opened) => return .ok (ByteText.ofBytes (opened.system.left id))
    | .error e => return .error e

/-- Takes a step for what is read from every path, or from standard input if there are none; complains
about those that cannot be read. -/
def eachText (complaint : ByteText → FileError → ByteText) (paths : List ByteText)
    (step : ByteText → ByteText → Sh Unit) : Sh Nat := do
  let mut status := 0
  for path in if paths.isEmpty then [['-']] else paths do
    match ← readPath path with
    | .ok text => step path text
    | .error e =>
      warn (complaint path e)
      status := 1
  return status

/-- The lines of a text. -/
def linesOf (text : ByteText) : List ByteText :=
  let pieces := splitOn '\n' text
  if pieces.getLast? = some [] then pieces.dropLast else pieces

/-- Lines as a text. -/
def unlines (lines : List ByteText) : ByteText := lines.flatMap fun line => line ++ ['\n']

/-- The number that an argument is, in decimal. -/
def number? (text : ByteText) : Option Nat :=
  if text.isEmpty then none else Numeral.digits? 10 0 text

/-! ## Texts -/

/-- `echo`: backslash sequences count only with the option `e`. -/
def echo : Utility := fun args => do
  let isOption (arg : ByteText) : Bool :=
    match arg with
    | '-' :: c :: letters => (c :: letters).all fun c => c == 'n' || c == 'e' || c == 'E'
    | _ => false
  let letters := (args.takeWhile isOption).flatten
  let words := args.dropWhile isOption
  let escapes := (letters.filter fun c => c == 'e' || c == 'E').getLast? == some 'e'
  if escapes then
    let printed := echoed (if letters.contains 'n' then ['-', 'n'] :: words else words)
    Sh.print printed
  else Sh.print (joinWith ' ' words ++ (if letters.contains 'n' then [] else ['\n']))
  return 0

/-- `printf`. -/
def printf : Utility := fun args => do
  match args with
  | [] => refuseUse 1 "missing operand".toList
  | format :: args => do
    let printed := Printed.run format args
    printed.complaints.forM fun message => warn message.toList
    Sh.print printed.output
    return if printed.complaints.isEmpty && printed.failure.isNone then 0 else 1

/-- `cat`. -/
def cat : Utility := fun args => do
  let (found, paths) ← options "nu" 1 args
  eachText plainly paths fun _ text =>
    if has found 'n' then
      let lines := (linesOf text).zipIdx.map fun (line, n) =>
        inField 6 (toString (n + 1)).toList ++ '\t' :: line
      Sh.print (unlines lines)
    else Sh.print text

/-- What options of `head` and `tail` ask for: a count, whether it counts from the beginning, whether it
counts bytes, and the paths. -/
def partWanted (args : List ByteText) : Sh (Nat × Bool × Bool × List ByteText) := do
  let args := args.map fun arg =>
    match arg with
    | '-' :: c :: digits => if c.isDigit then "-n".toList ++ c :: digits else arg
    | _ => arg
  let (found, paths) ← options "n:c:" 1 args
  match found.getLast? with
  | none => return (10, false, false, paths)
  | some (c, value) =>
    let (digits, fromStart) : ByteText × Bool := match value with
      | '+' :: digits => (digits, true)
      | '-' :: digits => (digits, false)
      | digits => (digits, false)
    match number? digits with
    | some n => return (n, fromStart, c == 'c', paths)
    | none =>
      let unit := if c = 'c' then "bytes" else "lines"
      refuse 1 (("invalid number of " ++ unit ++ ": '").toList ++ value ++ ['\''])

/-- A text in lines, each with its end, or in bytes. -/
def piecesOf (bytes : Bool) (text : ByteText) : List ByteText :=
  if bytes then text.map fun c => [c]
  else
    let lines := (splitOn '\n' text).zipIdx
    let whole := lines.length
    lines.filterMap fun (line, n) =>
      if n + 1 < whole then some (line ++ ['\n']) else if line.isEmpty then none else some line

/-- Writes a part of every text, under its name if there are several. -/
def writeParts (bytes : Bool) (paths : List ByteText) (part : List ByteText → List ByteText) :
    Sh Nat := do
  let first := paths.headD []
  let complaint (path : ByteText) (e : FileError) : ByteText :=
    "cannot open '".toList ++ path ++ ("' for reading: " ++ e.text).toList
  eachText complaint paths fun path text => do
    if 1 < paths.length then
      Sh.print ((if path = first then [] else ['\n']) ++ "==> ".toList ++ path ++ " <==\n".toList)
    Sh.print (part (piecesOf bytes text)).flatten

/-- `head`. -/
def head : Utility := fun args => do
  let (n, _, bytes, paths) ← partWanted args
  writeParts bytes paths fun pieces => pieces.take n

/-- `tail`. -/
def tail : Utility := fun args => do
  let (n, fromStart, bytes, paths) ← partWanted args
  writeParts bytes paths fun pieces =>
    if fromStart then pieces.drop (n - 1) else pieces.drop (pieces.length - n)

/-- How many words a text has. -/
def wordCount (text : ByteText) : Nat :=
  (text.foldl
    (fun (count, inWord) c =>
      if isSpaceByte c then (count, false) else (if inWord then count else count + 1, true))
    (0, false)).1

/-- `wc`. -/
def wc : Utility := fun args => do
  let (found, paths) ← options "lwc" 1 args
  let s ← get
  let stored := match (s.descriptor? 0).bind fun id => s.system.opened[id.index]? with
    | some (.file ..) => true
    | _ => false
  let shows (c : Char) : Bool := found.isEmpty || has found c
  let mut texts : List (ByteText × ByteText) := []
  let mut status := 0
  for path in if paths.isEmpty then [['-']] else paths do
    match ← readPath path with
    | .ok text => texts := texts ++ [(if paths.isEmpty then [] else path, text)]
    | .error e =>
      warn (plainly path e)
      status := 1
  let columns := (['l', 'w', 'c'].filter shows).length
  let size := (texts.map fun (_, text) => text.length).foldl (· + ·) 0
  let width :=
    if columns = 1 ∧ texts.length ≤ 1 then 1
    else if paths.isEmpty && !stored then 7
    else (toString size).length
  let row (name : ByteText) (lines words bytes : Nat) : ByteText :=
    let cells := [('l', lines), ('w', words), ('c', bytes)].filterMap fun (c, n) =>
      if shows c then some (inField width (toString n).toList) else none
    joinWith ' ' cells ++ (if name.isEmpty then [] else ' ' :: name) ++ ['\n']
  for (name, text) in texts do
    Sh.print (row name (text.count '\n') (wordCount text) text.length)
  if 1 < paths.length then
    let total (f : ByteText → Nat) : Nat := (texts.map fun (_, text) => f text).foldl (· + ·) 0
    Sh.print (row "total".toList (total (·.count '\n')) (total wordCount) size)
  return status

/-- The integer at the front of a line. -/
def leadingInteger (line : ByteText) : Int :=
  match line.dropWhile isSpaceByte with
  | '-' :: digits => -((Numeral.digits? 10 0 (digits.takeWhile Char.isDigit)).getD 0 : Int)
  | digits => ((Numeral.digits? 10 0 (digits.takeWhile Char.isDigit)).getD 0 : Int)

/-- Lines without those that equal the one before. -/
def withoutRepeats : List ByteText → List ByteText
  | [] => []
  | line :: lines =>
    match withoutRepeats lines with
    | [] => [line]
    | next :: rest => if line = next then next :: rest else line :: next :: rest

/-- `sort`. -/
def sort : Utility := fun args => do
  let (found, paths) ← options "nru" 2 args
  let mut lines : List ByteText := []
  for path in if paths.isEmpty then [['-']] else paths do
    match ← readPath path with
    | .ok text => lines := lines ++ linesOf text
    | .error e => refuse 2 ("cannot read: ".toList ++ path ++ (": " ++ e.text).toList)
  let before (a b : ByteText) : Bool :=
    if has found 'n' && leadingInteger a != leadingInteger b then leadingInteger a < leadingInteger b
    else !bytesBefore b a
  let sorted := lines.mergeSort fun a b => if has found 'r' then before b a else before a b
  Sh.print (unlines (if has found 'u' then withoutRepeats sorted else sorted))
  return 0

/-- Lines with how often each stands in a row. -/
def countRepeats : List ByteText → List (ByteText × Nat)
  | [] => []
  | line :: lines =>
    match countRepeats lines with
    | [] => [(line, 1)]
    | (next, n) :: rest => if line = next then (next, n + 1) :: rest else (line, 1) :: (next, n) :: rest

/-- `uniq`. -/
def uniq : Utility := fun args => do
  let (found, paths) ← options "cdu" 1 args
  eachText plainly (paths.take 1) fun _ text => do
    let counted := (countRepeats (linesOf text)).filter fun (_, n) =>
      (!has found 'd' || decide (1 < n)) && (!has found 'u' || n == 1)
    Sh.print (unlines (counted.map fun (line, n) =>
      if has found 'c' then inField 7 (toString n).toList ++ ' ' :: line else line))

/-- `rev`. -/
def rev : Utility := fun args => do
  let (_, paths) ← options "" 1 args
  eachText (fun path e => "cannot open ".toList ++ plainly path e) paths fun _ text =>
    Sh.print (joinWith '\n' ((splitOn '\n' text).map fun line =>
      ByteText.ofBytes (Utf8.encode (Utf8.decodeLossy (ByteText.toBytes line)).reverse)))

/-- How often an item of an expression may stand. -/
inductive Repetition
  | once
  | anyNumber
  | atLeastOnce
  | atMostOnce
deriving DecidableEq, Repr, Inhabited

/-- An expression that `grep` looks for. -/
structure Searched where
  atStart : Bool
  atEnd : Bool
  items : List (PatternItem × Repetition)
deriving Inhabited

namespace Searched

/-- Whether items match at the front of a text, up to its end if they have to.  `turns` bounds the
length of both. -/
def matchesItems (atEnd : Bool) : Nat → List (PatternItem × Repetition) → ByteText → Bool
  | 0, _, _ => false
  | _ + 1, [], cs => !atEnd || cs.isEmpty
  | turns + 1, (item, repetition) :: items, cs =>
    let taken (items : List (PatternItem × Repetition)) : Bool :=
      match cs with
      | [] => false
      | c :: cs => item.fits c && matchesItems atEnd turns items cs
    match repetition with
    | .once => taken items
    | .anyNumber => taken ((item, .anyNumber) :: items) || matchesItems atEnd turns items cs
    | .atLeastOnce => taken ((item, .anyNumber) :: items)
    | .atMostOnce => taken items || matchesItems atEnd turns items cs

/-- Whether an expression is found in a line. -/
def isIn (e : Searched) (line : ByteText) : Bool :=
  let bound := 2 * (line.length + e.items.length) + 2
  if e.atStart then matchesItems e.atEnd bound e.items line
  else (List.range (line.length + 1)).any fun n => matchesItems e.atEnd bound e.items (line.drop n)

/-- The items of an expression; `turns` bounds its length. -/
def readItems (extended : Bool) : Nat → ByteText → List (PatternItem × Repetition)
  | 0, _ => []
  | _ + 1, [] => []
  | turns + 1, c :: cs =>
    let (item, rest) : PatternItem × ByteText := match c, cs with
      | '.', _ => (.any, cs)
      | '\\', d :: rest => (.char d, rest)
      | '[', _ =>
        let marked : List (Char × Bool) := match cs with
          | '^' :: rest => ('!', false) :: rest.map fun c => (c, c == '\\')
          | _ => cs.map fun c => (c, c == '\\')
        match Pattern.list? marked with
        | some (item, rest) => (item, rest.map Prod.fst)
        | none => (.char c, cs)
      | _, _ => (.char c, cs)
    match rest with
    | '*' :: rest => (item, .anyNumber) :: readItems extended turns rest
    | '+' :: more =>
      if extended then (item, .atLeastOnce) :: readItems extended turns more
      else (item, .once) :: readItems extended turns rest
    | '?' :: more =>
      if extended then (item, .atMostOnce) :: readItems extended turns more
      else (item, .once) :: readItems extended turns rest
    | _ => (item, .once) :: readItems extended turns rest

/-- Reads an expression. -/
def read (extended plain whole : Bool) (text : ByteText) : Searched :=
  if plain then ⟨whole, whole, text.map fun c => (.char c, .once)⟩
  else
    let (atStart, body) := match text with
      | '^' :: rest => (true, rest)
      | _ => (whole, text)
    let ends := body.getLast? == some '$' && (body.dropLast.getLast? != some '\\')
    let body := if ends then body.dropLast else body
    ⟨atStart, ends || whole, readItems extended (body.length + 1) body⟩

end Searched

/-- `grep`: the status says whether a line was found. -/
def grep : Utility := fun args => do
  let (found, rest) ← options "qvicnFExle:" 2 args
  let given := (found.filter fun (c, _) => c == 'e').map Prod.snd
  let (texts, paths) := if given.isEmpty then (rest.take 1, rest.drop 1) else (given, rest)
  if texts.isEmpty then
    refuse 2 "usage: grep [OPTION]... PATTERNS [FILE]...".toList
  let fold (text : ByteText) : ByteText := if has found 'i' then text.map Char.toLower else text
  let expressions := texts.flatMap fun text =>
    (splitOn '\n' text).map fun text =>
      Searched.read (has found 'E') (has found 'F') (has found 'x') (fold text)
  let mut any := false
  let mut failed := false
  for path in if paths.isEmpty then [['-']] else paths do
    match ← readPath path with
    | .error e =>
      warn (plainly path e)
      failed := true
    | .ok text =>
      let front := if 1 < paths.length then path ++ [':'] else []
      let hits := (linesOf text).zipIdx.filter fun (line, _) =>
        (expressions.any fun e => e.isIn (fold line)) != has found 'v'
      if !hits.isEmpty then any := true
      if has found 'q' then pure ()
      else if has found 'l' then Sh.print (if hits.isEmpty then [] else path ++ ['\n'])
      else if has found 'c' then Sh.print (front ++ (toString hits.length).toList ++ ['\n'])
      else
        let shown := hits.map fun (line, n) =>
          front ++ (if has found 'n' then (toString (n + 1)).toList ++ [':'] else []) ++ line
        Sh.print (unlines shown)
  return if failed then 2 else if any then 0 else 1

/-- A set of characters with its ranges written out. -/
def characterSet : Nat → ByteText → ByteText
  | 0, _ => []
  | _ + 1, [] => []
  | turns + 1, '\\' :: cs =>
    let (c, width) := escaped cs
    c :: characterSet turns (cs.drop width)
  | turns + 1, a :: '-' :: b :: cs =>
    ((List.range (b.toNat + 1)).drop a.toNat).map Char.ofNat ++ characterSet turns cs
  | turns + 1, c :: cs => c :: characterSet turns cs

/-- `tr`: replaces characters, removes them with the option `d`, or removes repeats with `s`. -/
def tr : Utility := fun args => do
  let (found, sets) ← options "ds" 1 args
  let set (n : Nat) : ByteText :=
    let text := sets.getD n []
    characterSet (text.length + 1) text
  let text ← readInput
  if has found 'd' then Sh.print (text.filter fun c => !(set 0).contains c)
  else if has found 's' && sets.length = 1 then
    let squeezed := text.foldl
      (fun out c => if (set 0).contains c && out.head? == some c then out else c :: out) []
    Sh.print squeezed.reverse
  else
    let target := set 1
    let replaced := text.map fun c =>
      match (set 0).idxOf? c with
      | some n => (target[n]?).getD (target.getLast?.getD c)
      | none => c
    Sh.print replaced
  return 0

/-- `seq`. -/
def seq : Utility := fun args => do
  let numbers ← args.mapM fun arg => do
    match Arithmetic.readDecimal? arg with
    | some n => pure n
    | none => refuseUse 1 ("invalid floating point argument: '".toList ++ arg ++ ['\''])
  let (first, step, last) ← match numbers with
    | [last] => pure (1, 1, last)
    | [first, last] => pure (first, 1, last)
    | [first, step, last] => pure (first, step, last)
    | _ => refuseUse 1 "missing operand".toList
  if step = 0 then refuseUse 1 "invalid Zero increment value: '0'".toList
  let count := if (last - first) * step < 0 then 0 else ((last - first).tdiv step).toNat + 1
  Sh.print (unlines ((List.range count).map fun (n : Nat) => (toString (first + n * step)).toList))
  return 0

/-! ## Paths -/

/-- A path without slashes at its end. -/
def withoutEndSlashes (path : ByteText) : ByteText := (path.reverse.dropWhile (· = '/')).reverse

/-- The last component of a path. -/
def lastComponent (path : ByteText) : ByteText :=
  let path := withoutEndSlashes path
  (path.reverse.takeWhile (· ≠ '/')).reverse

/-- `basename`. -/
def basename : Utility := fun args => do
  match args with
  | [] => refuseUse 1 "missing operand".toList
  | path :: rest => do
    let name := if path.all (· = '/') && !path.isEmpty then ['/'] else lastComponent path
    let ending := rest.headD []
    let short := (name.take (name.length - ending.length))
    Sh.print ((if short ++ ending = name ∧ short ≠ [] then short else name) ++ ['\n'])
    return 0

/-- `dirname`. -/
def dirname : Utility := fun args => do
  if args.isEmpty then refuseUse 1 "missing operand".toList
  for path in args do
    let body := withoutEndSlashes path
    let front := body.take (body.length - (lastComponent path).length)
    let directory := withoutEndSlashes front
    Sh.print ((if !directory.isEmpty then directory
      else if path.head? = some '/' then ['/'] else ['.']) ++ ['\n'])
  return 0

/-- `pwd`. -/
def pwd : Utility := fun _ => do
  Sh.print ((← get).workDir ++ ['\n'])
  return 0

/-! ## The environment -/

/-- `printenv`. -/
def printenv : Utility := fun args => do
  let environment := (← get).environment
  if args.isEmpty then
    Sh.print (unlines (environment.map fun (name, value) => name ++ '=' :: value))
    return 0
  let mut status := 0
  for name in args do
    match environment.lookup name with
    | some value => Sh.print (value ++ ['\n'])
    | none => status := 1
  return status

/-- `env`: with a command, runs it. -/
def env (run : ByteText → List ByteText → Sh Nat) : Utility := fun args => do
  let (found, args) : Bool × List ByteText := match args with
    | ['-', 'i'] :: rest => (true, rest)
    | ['-'] :: rest => (true, rest)
    | _ => (false, args)
  if found then modify fun s => { s with bindings := [] }
  let assignments := args.takeWhile (·.contains '=')
  for arg in assignments do
    if let some (name, value) := splitAtFirst '=' arg then
      Sh.setEntry (ByteText.toString name) (some ⟨some value, true, false⟩)
  match args.drop assignments.length with
  | [] => printenv []
  | name :: rest => run name (name :: rest)

/-! ## Files -/

/-- Changes the files. -/
def changeFiles (change : FileTree → FileTree) : Sh Unit :=
  modify fun s => { s with system := { s.system with files := change s.system.files } }

/-- The names in a directory that are shown. -/
def shownNames (found : List (Char × ByteText)) (entries : List (String × FileNode)) :
    List ByteText :=
  let names := entries.map fun (name, _) => ByteText.ofString name
  let names := if has found 'a' then ['.'] :: ['.', '.'] :: names else names
  let names := names.filter fun name => has found 'a' || has found 'A' || name.head? != some '.'
  names.mergeSort fun a b => !bytesBefore b a

/-- `ls`. -/
def ls : Utility := fun args => do
  let (found, paths) ← options "1aAd" 2 args
  let s ← get
  let mut status := 0
  let mut files : List ByteText := []
  let mut directories : List (ByteText × List ByteText) := []
  for path in (if paths.isEmpty then [['.']] else paths).mergeSort fun a b => !bytesBefore b a do
    match s.system.files.find (ByteText.toString path) with
    | .ok (.directory entries) =>
      if has found 'd' then files := files ++ [path]
      else directories := directories ++ [(path, shownNames found entries)]
    | .ok _ => files := files ++ [path]
    | .error e =>
      warn (named "cannot access " path e)
      status := 2
  Sh.print (unlines files)
  let mut first := files.isEmpty
  for (path, names) in directories do
    if 1 < paths.length then
      Sh.print ((if first then [] else ['\n']) ++ path ++ ":\n".toList)
    Sh.print (unlines names)
    first := false
  return status

/-- The paths that lead to a path. -/
def leadingPaths (path : ByteText) : List ByteText :=
  let components := splitOn '/' path
  (List.range components.length).map fun n => joinWith '/' (components.take (n + 1))

/-- Makes a directory. -/
def makeDirectory (path : ByteText) : Sh (Except FileError Unit) := do
  let files := (← get).system.files
  let text := ByteText.toString path
  if (files.find text).isOk then return .error .alreadyExists
  match files.placeFor (ByteText.toString (withoutEndSlashes path)) with
  | .error e => return .error e
  | .ok names => do
    changeFiles fun t => t.putAt names (.directory [])
    return .ok ()

/-- `mkdir`. -/
def mkdir : Utility := fun args => do
  let (found, paths) ← options "pm:" 1 args
  if paths.isEmpty then refuseUse 1 "missing operand".toList
  let mut status := 0
  for path in paths do
    if has found 'p' then
      for front in leadingPaths path do
        if !front.isEmpty then
          match (← get).node? front with
          | some (.directory _) => pure ()
          | _ =>
            if let .error e := ← makeDirectory front then
              warn (named "cannot create directory " front e)
              status := 1
    else
      if let .error e := ← makeDirectory path then
        warn (named "cannot create directory " path e)
        status := 1
  return status

/-- `rmdir`. -/
def rmdir : Utility := fun args => do
  let (_, paths) ← options "" 1 args
  let mut status := 0
  for path in paths do
    let found : Except FileError (List String) :=
      match (← get).system.files.locate (ByteText.toString path) with
      | .ok (names, .directory []) => .ok names
      | .ok (_, .directory _) => .error .notEmpty
      | .ok _ => .error .notADirectory
      | .error e => .error e
    match found with
    | .ok names => changeFiles (·.removeAt names)
    | .error e =>
      warn (named "failed to remove " path e)
      status := 1
  return status

/-- `rm`. -/
def rm : Utility := fun args => do
  let (found, paths) ← options "rRf" 1 args
  let forced := has found 'f'
  if paths.isEmpty && !forced then
    refuseUse 1 "missing operand".toList
  let mut status := 0
  for path in paths do
    match (← get).system.files.locate (ByteText.toString path) with
    | .ok (names, node) =>
      let isDirectory := match node with
        | .directory _ => true
        | _ => false
      if isDirectory && !has found 'r' && !has found 'R' then
        warn (named "cannot remove " path .isADirectory)
        status := 1
      else changeFiles (·.removeAt names)
    | .error e =>
      if !forced then
        warn (named "cannot remove " path e)
        status := 1
  return status

/-- `touch`. -/
def touch : Utility := fun args => do
  let (found, paths) ← options "cam" 1 args
  let mut status := 0
  for path in paths do
    let s ← get
    if (s.node? path).isNone && !has found 'c' then
      match s.openFile .append path with
      | .ok (_, s) => set s
      | .error e =>
        warn (named "cannot touch " path e)
        status := 1
  return status

/-- Where a file goes: into a directory under its own name, or to the path itself. -/
def destination (source target : ByteText) : Sh ByteText := do
  match (← get).node? target with
  | some (.directory _) => return withoutEndSlashes target ++ '/' :: lastComponent source
  | _ => return target

/-- Moves or copies files; `take` says whether a node may be taken, and what happens where it was. -/
def transfer (verb : String) (take : FileNode → Option String)
    (after : List String → FileTree → FileTree) (paths : List ByteText) : Sh Nat := do
  match paths.getLast?, paths.dropLast with
  | some target, source :: more => do
    let mut status := 0
    for source in source :: more do
      let s ← get
      let place ← destination source target
      match s.system.files.locate (ByteText.toString source) with
      | .error e =>
        warn (named "cannot stat " source e)
        status := 1
      | .ok (names, node) =>
        match take node with
        | some message =>
          warn (message.toList ++ " '".toList ++ source ++ ['\''])
          status := 1
        | none =>
          match s.system.files.placeFor (ByteText.toString place) with
          | .ok goal =>
            if goal ≠ names then changeFiles fun t => (after names t).putAt goal node
          | .error e =>
            warn (named ("cannot " ++ verb ++ " ") place e)
            status := 1
    return status
  | _, _ => refuseUse 1 "missing file operand".toList

/-- `mv`. -/
def mv : Utility := fun args => do
  let (_, paths) ← options "fn" 1 args
  transfer "move to" (fun _ => none) (fun names t => t.removeAt names) paths

/-- `cp`. -/
def cp : Utility := fun args => do
  let (found, paths) ← options "rRfp" 1 args
  let deep := has found 'r' || has found 'R'
  let take (node : FileNode) : Option String :=
    match node with
    | .directory _ => if deep then none else some "-r not specified; omitting directory"
    | _ => none
  transfer "create regular file" take (fun _ t => t) paths

/-- Whether a mode leaves a file executable. -/
def modeAllows (mode : ByteText) (executable : Bool) : Option Bool :=
  if mode.all Char.isDigit && !mode.isEmpty then
    (Numeral.digits? 8 0 mode).map fun n => n % 2 == 1 || n / 8 % 2 == 1 || n / 64 % 2 == 1
  else
    let change := mode.dropWhile fun c => ['u', 'g', 'o', 'a'].contains c
    match change with
    | '+' :: letters => some (executable || letters.contains 'x')
    | '-' :: letters => some (executable && !letters.contains 'x')
    | '=' :: letters => some (letters.contains 'x')
    | _ => none

/-- `chmod`. -/
def chmod : Utility := fun args => do
  match args with
  | mode :: paths => do
    let mut status := 0
    for path in paths do
      match (← get).system.files.locate (ByteText.toString path) with
      | .ok (names, .file bytes executable) =>
        match modeAllows mode executable with
        | some executable => changeFiles fun t => t.putAt names (.file bytes executable)
        | none => refuseUse 1 ("invalid mode: '".toList ++ mode ++ ['\''])
      | .ok _ => pure ()
      | .error e =>
        warn (named "cannot access " path e)
        status := 1
    return status
  | [] => refuseUse 1 "missing operand".toList

/-- `tee`. -/
def tee : Utility := fun args => do
  let (found, paths) ← options "a" 1 args
  let text ← readInput
  Sh.print text
  let mut status := 0
  for path in paths do
    match (← get).openFile (if has found 'a' then .append else .overwrite) path with
    | .ok (id, s) => set { s with system := s.system.write id (ByteText.toBytes text) }
    | .error e =>
      warn (plainly path e)
      status := 1
  return status

/-- `test`, whose complaints name no line. -/
def test (bracket : Bool) : Utility := fun args => do
  match Condition.holds (← get).facts bracket args with
  | .ok answer => return if answer then 0 else 1
  | .error problem => refuse 2 problem.message.toList

/-- The program of a name. -/
def ofName? (run : ByteText → List ByteText → Sh Nat) (name : String) : Option Utility :=
  match name with
  | "[" => some (test true)
  | "basename" => some basename
  | "cat" => some cat
  | "chmod" => some chmod
  | "cp" => some cp
  | "dirname" => some dirname
  | "echo" => some echo
  | "env" => some (env run)
  | "false" => some fun _ => return 1
  | "grep" => some grep
  | "head" => some head
  | "ls" => some ls
  | "mkdir" => some mkdir
  | "mv" => some mv
  | "printenv" => some printenv
  | "printf" => some printf
  | "pwd" => some pwd
  | "rev" => some rev
  | "rm" => some rm
  | "rmdir" => some rmdir
  | "seq" => some seq
  | "sleep" => some fun _ => return 0
  | "sort" => some sort
  | "tail" => some tail
  | "tee" => some tee
  | "test" => some (test false)
  | "touch" => some touch
  | "tr" => some tr
  | "true" => some fun _ => return 0
  | "uniq" => some uniq
  | "wc" => some wc
  | _ => none

end Utility

end Script

end ValueShell
