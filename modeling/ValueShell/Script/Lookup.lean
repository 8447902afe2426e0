/-
  What the name of a command stands for.

  A name with a slash is a path.  Any other is that of a special builtin, of a function, of a builtin,
  or of a program, which is looked for in the directories of `PATH`, in this order.
-/
import ValueShell.Script.Descriptor

namespace ValueShell

namespace Script

/-- The builtins that are not special. -/
def plainBuiltins : List String :=
  ["[", "alias", "bg", "cd", "chdir", "command", "echo", "false", "fg", "getopts", "hash", "jobs",
   "kill", "printf", "pwd", "read", "test", "true", "type", "ulimit", "umask", "unalias", "wait"]

/-- The builtins whose arguments can be assignments. -/
def assigningBuiltins : List String := ["export", "local", "readonly"]

/-- What a name stands for. -/
inductive Found
  | builtin (name : String) (special : Bool)
  | function (body : Command)
  | program (path : ByteText)
  | missing (error : FileError)
deriving Inhabited

/-- The directories in which programs are looked for if nothing says otherwise. -/
def standardPath : ByteText :=
  "/usr/local/sbin:/usr/local/bin:/usr/sbin:/usr/bin:/sbin:/bin".toList

/-- A name in a directory; in none, the name itself. -/
def inDirectory (directory name : ByteText) : ByteText :=
  if directory.isEmpty then name else directory ++ '/' :: name

/-- The program of a name in one of the directories.  If there is none, a file of that name that cannot
be started is the reason. -/
def findProgram (files : FileTree) (name : ByteText) : List ByteText → FileError → Found
  | [], error => .missing error
  | directory :: rest, error =>
    let path := inDirectory directory name
    match files.find (ByteText.toString path) with
    | .ok _ =>
      if files.isExecutable (ByteText.toString path) then .program path
      else findProgram files name rest .permissionDenied
    | .error .notFound => findProgram files name rest error
    | .error .notADirectory => findProgram files name rest error
    | .error e => findProgram files name rest e

/-- The program that a name stands for, with the given directories. -/
def programNamed (files : FileTree) (path name : ByteText) : Found :=
  if name.contains '/' then .program name
  else findProgram files name (splitOn ':' path) .notFound

/-- What a name stands for; `path` are other directories than those of `PATH`. -/
def Shell.lookUp (s : Shell) (functions : Bool) (path : Option ByteText) (name : ByteText) : Found :=
  let text := ByteText.toString name
  let program := programNamed s.system.files (path.getD ((s.value? "PATH").getD [])) name
  if name.contains '/' then program
  else if specialBuiltins.contains text then .builtin text true
  else
    match if functions then Table.find? s.functions text else none with
    | some body => .function body
    | none => if plainBuiltins.contains text then .builtin text false else program

/-- A text in single quotes, in which a quote stands in double quotes. -/
def quoted (text : ByteText) : ByteText :=
  let rec inside : ByteText → ByteText
    | [] => ['\'']
    | '\'' :: cs => "'\"'\"'".toList ++ inside cs
    | c :: cs => c :: inside cs
  '\'' :: inside text

/-- What an alias is shown as. -/
def aliasLine (name : String) (meaning : ByteText) : ByteText :=
  name.toList ++ '=' :: quoted meaning ++ ['\n']

/-- What is said about a name: in full, or in so many words as are needed to use it.  The status tells
whether it stands for anything. -/
def Shell.describe (s : Shell) (full : Bool) (path : Option ByteText) (name : ByteText) :
    ByteText × Nat :=
  let text := ByteText.toString name
  let line (words : String) : ByteText × Nat :=
    (name ++ (if full then words.toList else []) ++ ['\n'], 0)
  let nothing : ByteText × Nat := (if full then name ++ ": not found\n".toList else [], 127)
  if reservedWords.contains text then line " is a shell keyword"
  else
    match Table.find? s.input.aliases text with
    | some meaning =>
      if full then (name ++ " is an alias for ".toList ++ meaning ++ ['\n'], 0)
      else ("alias ".toList ++ aliasLine text meaning, 0)
    | none =>
      match s.lookUp true path name with
      | .builtin _ special => line (if special then " is a special shell builtin" else " is a shell builtin")
      | .function _ => line " is a shell function"
      | .program path =>
        match s.system.files.find (ByteText.toString path) with
        | .ok _ => (if full then name ++ " is ".toList ++ path ++ ['\n'] else path ++ ['\n'], 0)
        | .error _ => nothing
      | .missing _ => nothing

/-! ## Options -/

/-- The options at the front of arguments, each with its argument if it has one, and what follows; or
the complaint about them.  In `known` a colon stands behind the letter of an option with an
argument.  `turns` bounds the length of the arguments. -/
def readOptions (known : List Char) : Nat → List ByteText →
    Except String (List (Char × ByteText) × List ByteText)
  | 0, args => .ok ([], args)
  | turns + 1, args =>
    match args with
    | ['-', '-'] :: rest => .ok ([], rest)
    | ('-' :: c :: letters) :: rest =>
      if c = ':' ∨ ¬ known.contains c then .error ("Illegal option -" ++ ByteText.toString [c])
      else if ((known.dropWhile (· ≠ c)).drop 1).head? = some ':' then
        match if letters.isEmpty then rest else letters :: rest with
        | [] => .error ("No arg for -" ++ ByteText.toString [c] ++ " option")
        | argument :: rest => do
          let (more, rest) ← readOptions known turns rest
          return ((c, argument) :: more, rest)
      else do
        let next := if letters.isEmpty then rest else ('-' :: letters) :: rest
        let (more, rest) ← readOptions known turns next
        return ((c, []) :: more, rest)
    | _ => .ok ([], args)

/-- The options at the front of arguments, and what follows. -/
def Sh.options (known : String) (args : List ByteText) :
    Sh (List (Char × ByteText) × List ByteText) := do
  let bound := (args.map List.length).foldl (· + ·) args.length
  match readOptions known.toList (bound + 1) args with
  | .ok found => return found
  | .error message => fail message

/-- The number that an argument is. -/
def Sh.natural (text : ByteText) : Sh Nat :=
  match Arithmetic.readDecimal? text with
  | some n =>
    if 0 ≤ n ∧ n ≤ 0x7fffffff then return n.toNat else fail ("Illegal number: " ++ shown text)
  | none => fail ("Illegal number: " ++ shown text)

end Script

end ValueShell
