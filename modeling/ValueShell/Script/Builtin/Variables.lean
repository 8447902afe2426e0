/-
  Builtins about variables, options and arguments.

  A variable that is marked without having a value is kept, so that a later assignment finds the mark.
  What `local` marks is noted in the frame of the function that runs, which puts it back at its end.
-/
import ValueShell.Script.Lookup

namespace ValueShell

namespace Script

/-! ## Marks -/

/-- A mark on variables. -/
inductive Mark
  | exported
  | readOnly
deriving DecidableEq, Repr, Inhabited

/-- The word for a mark. -/
def Mark.word : Mark → String
  | exported => "export"
  | readOnly => "readonly"

/-- Whether a variable has a mark. -/
def Mark.isOn (m : Mark) (v : Variable) : Bool :=
  match m with
  | exported => v.exported
  | readOnly => v.readOnly

/-- A variable with a mark. -/
def Mark.put (m : Mark) (v : Variable) : Variable :=
  match m with
  | exported => { v with exported := true }
  | readOnly => { v with readOnly := true }

/-- A variable as a line that makes it. -/
def variableLine (front : String) (name : String) (value : Option ByteText) : ByteText :=
  let value := match value with
    | some text => '=' :: quoted text
    | none => []
  front.toList ++ name.toList ++ value ++ ['\n']

/-- An argument of the form `name=value`, or a name alone. -/
def nameAndValue (arg : ByteText) : ByteText × Option ByteText :=
  match splitAtFirst '=' arg with
  | some (name, value) => (name, some value)
  | none => (arg, none)

namespace Sh

/-- The name of a variable, if it can be one. -/
def variableName (name : ByteText) : Sh String :=
  if isName name then return String.ofList name
  else fail (shown name ++ ": bad variable name")

/-- Marks a variable, which is given a value first if there is one. -/
def mark (m : Mark) (arg : ByteText) : Sh Unit := do
  let (name, value) := nameAndValue arg
  let name ← variableName name
  if let some value := value then assign name value false
  let old := (Table.find? (← get).bindings name).getD ⟨none, false, false⟩
  setEntry name (some (m.put old))

/-- `export` and `readonly`. -/
def markAll (m : Mark) (args : List ByteText) : Sh Nat := do
  let (options, names) ← options "p" args
  if options.isEmpty && !names.isEmpty then names.forM (mark m)
  else
    for (name, v) in (← get).bindings do
      if m.isOn v then print (variableLine (m.word ++ " ") name v.value)
  return 0

/-- Removes a variable. -/
def remove (name : String) : Sh Unit := do
  match Table.find? (← get).bindings name with
  | some v => if v.readOnly then fail (name ++ ": is read only") else setEntry name none
  | none => return ()

/-- `unset`. -/
def unset (args : List ByteText) : Sh Nat := do
  let (options, names) ← options "vf" args
  let functions := (options.getLast?.map Prod.fst) == some 'f'
  for name in names do
    if functions then
      modify fun s => { s with functions := Table.erase s.functions (ByteText.toString name) }
    else remove (← variableName name)
  return 0

/-! ## Frames -/

/-- Notes in the frame of the function that runs what a variable is now. -/
def noteInFrame (name : String) : Sh Unit :=
  modify fun s =>
    match s.frames with
    | frame :: outer =>
      let bindings := (name, Table.find? s.bindings name) :: frame.bindings
      { s with frames := { frame with bindings } :: outer }
    | [] => s

/-- Notes in the frame of the function that runs which options are set. -/
def noteOptions : Sh Unit :=
  modify fun s =>
    match s.frames with
    | frame :: outer =>
      let options := frame.options.getD s.options
      { s with frames := { frame with options := some options } :: outer }
    | [] => s

/-- Makes a variable one of the frame. -/
def makeLocal (name : String) (value : Option ByteText) (exported : Bool) : Sh Unit := do
  noteInFrame name
  match value with
  | some value => assign name value exported
  | none => return ()

/-- `local`. -/
def declareLocal (args : List ByteText) : Sh Nat := do
  if (← get).frames.isEmpty then fail "not in a function"
  for arg in args do
    let (name, value) := nameAndValue arg
    if name = ['-'] then noteOptions else makeLocal (← variableName name) value false
  return 0

/-- Opens a frame. -/
def openFrame (s : Shell) : Shell := { s with frames := ⟨[], none⟩ :: s.frames }

/-- Closes a frame: its variables and options are again what they were. -/
def closeFrame (s : Shell) : Shell :=
  match s.frames with
  | frame :: frames =>
    let bindings := frame.bindings.foldl
      (fun bindings (name, old) =>
        match old with
        | some v => Table.insert bindings name v
        | none => Table.erase bindings name)
      s.bindings
    { s with bindings, options := frame.options.getD s.options, frames }
  | [] => s

/-! ## Options and arguments -/

/-- The names of the options, with their letters; some have none. -/
def optionNames : List (String × Option Char) :=
  [("errexit", some 'e'), ("noglob", some 'f'), ("ignoreeof", some 'I'), ("interactive", some 'i'),
   ("monitor", some 'm'), ("noexec", some 'n'), ("stdin", some 's'), ("xtrace", some 'x'),
   ("verbose", some 'v'), ("vi", some 'V'), ("emacs", some 'E'), ("noclobber", some 'C'),
   ("allexport", some 'a'), ("notify", some 'b'), ("nounset", some 'u'), ("privileged", some 'p'),
   ("nolog", none), ("debug", none)]

/-- Sets or unsets an option. -/
def setOption (letter : Char) (on : Bool) : Sh Unit := do
  if optionNames.any fun (_, l) => l == some letter then
    modify fun s =>
      let others := s.options.filter (· != letter)
      { s with options := if on then letter :: others else others }
  else fail ("Illegal option -" ++ shown [letter])

/-- Sets or unsets the option of a name; without a name, lists all options. -/
def setNamedOption (on : Bool) : Option ByteText → Sh Unit
  | some name =>
    match optionNames.find? fun (known, _) => known.toList == name with
    | some (_, some letter) => setOption letter on
    | some (_, none) => return ()
    | none => fail ("Illegal option -o " ++ shown name)
  | none => do
    let s ← get
    let isOn (letter : Option Char) : Bool := (letter.map s.hasOption).getD false
    if on then print "Current option settings\n".toList
    for (name, letter) in optionNames do
      let padding := List.replicate (16 - name.length) ' '
      if on then
        print (name.toList ++ padding ++ (if isOn letter then "on\n" else "off\n").toList)
      else print ((if isOn letter then "set -o " else "set +o ") ++ name ++ "\n").toList

/-- What options at the front of arguments leave. -/
structure OptionsRead where
  rest : List ByteText
  /-- the arguments of the shell are replaced even if there are none -/
  replaced : Bool
  /-- a `c` was among the letters -/
  command : Bool
deriving Inhabited

/-- Sets and unsets the options of one argument; those with an `o` take their names from `rest`. -/
def setLetters (starting on : Bool) : List Char → OptionsRead → Sh OptionsRead
  | [], found => return found
  | letter :: letters, found => do
    if letter = 'c' ∧ starting then setLetters starting on letters { found with command := true }
    else if letter = 'l' ∧ starting then setLetters starting on letters found
    else if letter = 'o' then
      setNamedOption on found.rest.head?
      setLetters starting on letters { found with rest := found.rest.tail }
    else
      setOption letter on
      setLetters starting on letters found

/-- Sets and unsets the options at the front of arguments.  `starting` says that they are those of the
shell itself; `turns` bounds how many there are. -/
def setOptions (starting : Bool) : Nat → OptionsRead → Sh OptionsRead
  | 0, found => return found
  | turns + 1, found =>
    match found.rest with
    | ['-'] :: rest => do
      if !starting then modify fun s => { s with options := s.options.filter fun c => c != 'x' && c != 'v' }
      return { found with rest }
    | ['-', '-'] :: rest => return { found with rest, replaced := true }
    | ('-' :: letters) :: rest => do
      setOptions starting turns (← setLetters starting true letters { found with rest })
    | ('+' :: letters) :: rest => do
      setOptions starting turns (← setLetters starting false letters { found with rest })
    | _ => return found

/-- Replaces the arguments. -/
def setArguments (args : List ByteText) : Sh Unit :=
  modify fun s => { s with args, optionIndex := 1, optionOffset := none }

/-- `set`. -/
def setCommand (args : List ByteText) : Sh Nat := do
  if args.isEmpty then
    for (name, v) in (← get).bindings do
      if v.value.isSome then print (variableLine "" name v.value)
  else
    let found ← setOptions false (args.length + 1) ⟨args, false, false⟩
    if found.replaced || !found.rest.isEmpty then setArguments found.rest
  return 0

/-- `shift`. -/
def shift (args : List ByteText) : Sh Nat := do
  let n ← match args with
    | [] => pure 1
    | arg :: _ => natural arg
  let s ← get
  if s.args.length < n then fail "can't shift that many"
  setArguments (s.args.drop n)
  return 0

/-! ## Reading -/

/-- A line that `read` has taken: its characters, each with whether a backslash stood before it, what
follows the line, and whether a line end was there. -/
def takeLine (raw : Bool) : ByteText → Marked × ByteText × Bool
  | [] => ([], [], false)
  | '\n' :: rest => ([], rest, true)
  | '\x00' :: rest => takeLine raw rest
  | '\\' :: rest =>
    if raw then
      let (line, rest, ended) := takeLine raw rest
      (('\\', false) :: line, rest, ended)
    else
      match rest with
      | [] => ([], [], false)
      | '\n' :: rest => takeLine raw rest
      | c :: rest =>
        let (line, rest, ended) := takeLine raw rest
        ((c, true) :: line, rest, ended)
  | c :: rest =>
    let (line, rest, ended) := takeLine raw rest
    ((c, false) :: line, rest, ended)

/-- The state of dividing a line among variables.  Texts are in reverse. -/
structure Division where
  fields : List ByteText
  field : ByteText
  /-- how many fields may still be ended; none for the last one -/
  remaining : Nat
  /-- a separator that is white space has just ended a field -/
  afterWhite : Bool
  /-- the last field without what may be dropped from its end -/
  kept : Option ByteText
deriving Inhabited

/-- Takes a character of the line. -/
def Division.step (ifs : ByteText) (d : Division) : Char × Bool → Division
  | (c, true) => { d with field := c :: d.field, afterWhite := false }
  | (c, false) =>
    let separates := ifs.contains c
    let white := separates && (c == ' ' || c == '\t' || c == '\n')
    if d.remaining = 0 then
      if white then { d with field := c :: d.field, kept := some (d.kept.getD d.field) }
      else
        let kept := if separates && d.afterWhite then d.kept else none
        { d with field := c :: d.field, kept, afterWhite := false }
    else if d.afterWhite && white then d
    else if d.afterWhite && separates then { d with afterWhite := false }
    else if separates then
      if white && d.field.isEmpty then d
      else if d.remaining = 1 then
        { d with remaining := 0, afterWhite := white, kept := some d.field, field := c :: d.field }
      else
        { fields := d.field :: d.fields, field := [], remaining := d.remaining - 1
          afterWhite := white, kept := none }
    else { d with field := c :: d.field, afterWhite := false }

/-- The fields of a line for the given number of variables; the last one takes all that is left. -/
def divideLine (ifs : ByteText) (count : Nat) (line : Marked) : List ByteText :=
  let d := line.foldl (Division.step ifs) ⟨[], [], count, false, none⟩
  let last := (d.kept.getD d.field).reverse
  d.fields.reverse ++ (if last.isEmpty then [] else [last])

/-- `read`. -/
def readVariables (args : List ByteText) : Sh Nat := do
  let (options, names) ← options "p:r" args
  if names.isEmpty then fail "arg count"
  let s ← get
  let raw := options.any fun (c, _) => c == 'r'
  let (line, rest, ended) := takeLine raw (ByteText.ofBytes (s.left 0))
  set (s.skipTo 0 (ByteText.toBytes rest))
  let fields := divideLine s.separators names.length line
  for (name, n) in names.zipIdx do
    assign (← variableName name) (fields.getD n []) false
  return if ended then 0 else 1

/-! ## `getopts` -/

/-- Sets `OPTARG`, or removes it. -/
def setOptionArgument (value : Option ByteText) : Sh Unit :=
  match value with
  | some value => assign "OPTARG" value false
  | none => setEntry "OPTARG" none

/-- Where `getopts` stands: the letters that are left of an argument, and the arguments after it. -/
structure OptionCursor where
  letters : ByteText
  following : List ByteText
deriving Inhabited

/-- The cursor at an argument and an offset into the one before it; none at the end of the options.
Two hyphens are taken, but end them. -/
def optionCursor (args : List ByteText) (index : Nat) (offset : Option Nat) :
    Option OptionCursor × List ByteText :=
  let before := ((if index ≤ 1 then none else args[index - 2]?).bind fun arg =>
    offset.map fun n => arg.drop n).getD []
  let following := args.drop (index - 1)
  if !before.isEmpty then (some ⟨before, following⟩, following)
  else
    match following with
    | ['-', '-'] :: rest => (none, rest)
    | ('-' :: c :: letters) :: rest => (some ⟨c :: letters, rest⟩, rest)
    | _ => (none, following)

/-- `getopts`. -/
def getOption (args : List ByteText) : Sh Nat := do
  let (_, args) ← options "" args
  match args with
  | known :: name :: given => do
    let s ← get
    let args := if given.isEmpty then s.args else given
    let (index, offset) :=
      if args.length + 1 < s.optionIndex then (1, none) else (s.optionIndex, s.optionOffset)
    let quiet := known.head? == some ':'
    let finish (c : Char) (letters : ByteText) (following : List ByteText) (status : Nat) :
        Sh Nat := do
      let index := args.length - following.length + 1
      assign "OPTIND" (toString index).toList false
      modify fun s =>
        let used := (args.getD (index - 2) []).length - letters.length
        { s with optionIndex := index, optionOffset := if letters.isEmpty then none else some used }
      assign (← variableName name) [c] false
      return status
    match optionCursor args index offset with
    | (none, following) => finish '?' [] following 1
    | (some ⟨[], _⟩, following) => finish '?' [] following 1
    | (some ⟨c :: letters, following⟩, _) => do
      let behind := (known.dropWhile (· ≠ c)).drop 1
      if c = ':' ∨ ¬ known.contains c then
        if quiet then setOptionArgument (some [c])
        else
          printError ("Illegal option -" ++ shown [c] ++ "\n").toList
          setOptionArgument none
        finish '?' letters following 0
      else if behind.head? = some ':' then
        match if letters.isEmpty then following else letters :: following with
        | value :: following => do
          setOptionArgument (some value)
          finish c [] following 0
        | [] => do
          if quiet then
            setOptionArgument (some [c])
            finish ':' [] [] 0
          else
            printError ("No arg for -" ++ shown [c] ++ " option\n").toList
            setOptionArgument none
            finish '?' [] [] 0
      else
        setOptionArgument (some [])
        finish c letters following 0
  | _ => fail "Usage: getopts optstring var [arg...]"

end Sh

end Script

end ValueShell
