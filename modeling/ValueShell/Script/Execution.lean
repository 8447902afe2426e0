/-
  Running commands.

  Every command has a status, and the shell keeps the status of the last one.  With the option `e` a
  simple command, a pipeline or a subshell that fails ends the shell, unless its outcome is looked
  at.  Commands that run in processes of their own are run to their end before the next one begins.
-/
import ValueShell.Script.Builtin

namespace ValueShell

namespace Script

/-- What is known about the call of a command while its words are expanded. -/
structure Call where
  found : Found
  fields : List ByteText
  /-- the words that have not been expanded -/
  words : List Word
  /-- whether the first builtin that was named is a special one, if one was -/
  special : Option Bool
  /-- assignments before the command hold for the command alone -/
  ownVariables : Bool
  /-- functions are looked at -/
  functions : Bool
  path : Option ByteText
deriving Inhabited

namespace Call

/-- Whether a failure of the call ends the shell. -/
def isSpecial (c : Call) : Bool := c.special == some true

/-- Whether what is called is the builtin of a name. -/
def isBuiltin (c : Call) (name : String) : Bool :=
  match c.found with
  | .builtin found _ => found == name
  | _ => false

/-- Whether the arguments can be assignments. -/
def takesAssignments (c : Call) : Bool :=
  match c.found with
  | .builtin name _ => assigningBuiltins.contains name
  | _ => false

end Call

/-- What a loop does after a part of it has run. -/
inductive LoopStep
  | goOn
  | nextTurn
  | leave
deriving DecidableEq, Repr, Inhabited

namespace Sh

/-- What a loop has to do about what is being left. -/
def loopStep : Sh LoopStep := do
  let s ← get
  match s.skip with
  | none => return .goOn
  | some (.return _) => return .leave
  | some (.break n) => do
    set { s with skip := if n ≤ 1 then none else some (.break (n - 1)) }
    return .leave
  | some (.continue n) => do
    set { s with skip := if n ≤ 1 then none else some (.continue (n - 1)) }
    return if n ≤ 1 then .nextTurn else .leave

/-- Runs the turns of a loop. -/
def inLoop (x : Sh Nat) : Sh Nat := do
  let loops := (← get).loops
  modify fun s => { s with loops := loops + 1 }
  andThen x fun s => { s with loops }

/-- Writes the words of a command before it runs, if that is asked for. -/
def trace (errors : Option OpenId) (texts : List ByteText) : Sh Unit :=
  modify fun s =>
    match errors with
    | some id =>
      let line := (s.value? "PS4").getD [] ++ joinWith ' ' texts ++ ['\n']
      if s.hasOption 'x' then { s with system := s.system.write id (ByteText.toBytes line) } else s
    | none => s

end Sh

namespace Interpreter

variable (i : Interpreter)

/-! ## The words of a call -/

/-- Expands words up to the first that gives fields. -/
def fill : List Word → Sh (List ByteText × List Word)
  | [] => return ([], [])
  | w :: ws => do
    let fields ← i.fields w
    if fields.isEmpty then fill ws else return (fields, ws)

/-- Expands more words of a call if it has only one field. -/
def withSecondField (c : Call) : Sh Call := do
  if 1 < c.fields.length then return c
  let (more, words) ← fill i c.words
  return { c with fields := c.fields ++ more, words }

/-- Takes `command` and its options from the front; false if it is to run itself.  `turns` bounds how
many options there are. -/
def dropPrefix : Nat → Call → Sh (Call × Bool)
  | 0, c => return (c, false)
  | turns + 1, c => do
    let c ← withSecondField i c
    match c.fields with
    | name :: first :: rest =>
      match first with
      | ['-', '-'] => do
        let c ← withSecondField i { c with fields := first :: rest }
        match c.fields with
        | _ :: next :: more => return ({ c with fields := next :: more }, true)
        | _ => return ({ c with fields := [name, first] }, false)
      | '-' :: c₁ :: letters =>
        if (c₁ :: letters).all (· = 'p') then
          dropPrefix turns { c with fields := name :: rest, path := some standardPath }
        else return (c, false)
      | _ => return ({ c with fields := first :: rest }, true)
    | _ => return (c, false)

/-- Finds out what a call is for.  `turns` bounds how often `command` stands in front. -/
def resolve : Nat → Call → Sh Call
  | 0, c => return c
  | turns + 1, c => do
    let found := (← get).lookUp c.functions c.path (c.fields.headD [])
    let c := { c with found }
    match found with
    | .builtin name special => do
      let c :=
        { c with
          special := some (c.special.getD special), ownVariables := c.special.isSome || !special }
      if name = "command" then
        let (inner, goesOn) ← dropPrefix i (c.fields.length + c.words.length + 1) c
        if goesOn then resolve turns { inner with functions := false } else return inner
      else return c
    | _ => return { c with ownVariables := true }

/-- The field or fields of a word after the first. -/
def argument (assignments : Bool) (w : Word) : Sh (List ByteText) := do
  match if assignments then Word.assignment? w else none with
  | some (name, value) => return [name.toList ++ '=' :: (← i.assigned value)]
  | none => i.fields w

/-- A call with all of its words expanded; none if there are none. -/
def call? (words : List Word) : Sh (Option Call) := do
  let (fields, rest) ← fill i words
  if fields.isEmpty then return none
  let c ← resolve i (fields.length + words.length)
    ⟨.missing .notFound, fields, rest, none, true, true, none⟩
  let more ← c.words.mapM (argument i c.takesAssignments)
  return some { c with fields := c.fields ++ more.flatten, words := [] }

/-! ## Simple commands -/

/-- Calls a function. -/
def callFunction (body : Command) (mode : Mode) (args : List ByteText) : Sh Nat := do
  let outer ← get
  set { outer with args, loops := 0, optionIndex := 1, optionOffset := none }
  let _ ← Sh.andThen (i.command body ⟨mode.tested, false⟩) fun s =>
    { s with
      args := outer.args, loops := outer.loops
      optionIndex := outer.optionIndex, optionOffset := outer.optionOffset
      skip := match s.skip with
        | some (.return _) => none
        | other => other }
  return (← get).status

/-- Runs a step in a process of its own and answers its status. -/
def statusApart (x : Sh Nat) (inside : Shell → Shell) : Sh Nat := do
  let (_, status) ← i.inProcess x inside
  Sh.reportSignal status
  return status.code

/-- Whether a trap is set that does something. -/
def hasTraps (s : Shell) : Bool := s.traps.any fun (_, action) => !action.isEmpty

/-- Runs what a call is for. -/
def runCall (c : Call) (mode : Mode) : Sh Nat := do
  let s ← get
  let found := match c.found with
    | .builtin .. => c.found
    | _ => s.lookUp c.functions c.path (c.fields.headD [])
  match found with
  | .builtin name _ => i.runBuiltin name c.isSpecial mode c.fields
  | .function body => callFunction i body mode c.fields.tail
  | .missing e => do
    Sh.complain (Sh.shown (c.fields.headD []) ++ ": " ++ failureText "not found" e)
    return 127
  | .program _ =>
    if mode.last && !hasTraps s then i.becomeOrFail found c.fields
    else statusApart i (i.becomeOrFail found c.fields) id

/-- Makes assignments one after the other, and answers them as texts. -/
def assignAll (own exported : Bool) (assignments : List (String × Word)) : Sh (List ByteText) :=
  assignments.mapM fun (name, w) => do
    let value ← i.assigned w
    if own then Sh.makeLocal name (some value) true else Sh.assign name value exported
    return name.toList ++ '=' :: value

/-- Runs a simple command. -/
def runSimple (mode : Mode) (line : Nat) (assignments : List (String × Word)) (words : List Word)
    (redirections : List Redirection) : Sh Nat := do
  modify fun s => { s with line, substitutionStatus := 0 }
  let call ← call? i words
  let redirected ← redirections.mapM i.redirected
  let before ← get
  let errors := before.descriptor? 2
  let saved := before.saved (redirected.map Redirected.descriptor)
  if !(← Redirected.carryOutAll redirected) then
    modify fun s => { s.restore saved with status := 2 }
    if (call.map Call.isSpecial).getD false then throw (.failed 2) else return 2
  let replaces := (call.map fun c => c.isBuiltin "exec").getD false
  let back (s : Shell) : Shell := if replaces then s else s.restore saved
  match call with
  | none =>
    Sh.andThen (do
      let texts ← assignAll i false false assignments
      Sh.trace errors texts
      return (← get).substitutionStatus) back
  | some c => do
    if c.ownVariables then modify Sh.openFrame
    let exported := replaces && 1 < c.fields.length
    let step : Sh Nat := do
      let texts ← assignAll i c.ownVariables exported assignments
      Sh.trace errors (texts ++ c.fields)
      runCall i c mode
    Sh.andThen step fun s => back (if c.ownVariables then Sh.closeFrame s else s)

/-! ## Commands made of commands -/

/-- Runs the stages of a pipeline, each with what the one before has written, and answers the status of
the last. -/
def runStages (tested : Bool) (input : Option OpenId) : List Command → Sh Nat
  | [] => return 0
  | [last] => statusApart i (i.command last ⟨tested, true⟩) (withInput input)
  | stage :: stages => do
    let id ← modifyGet fun s => s.openTarget (.stream [] [])
    let _ ← statusApart i (i.command stage ⟨tested, true⟩) fun s =>
      (withInput input s).setDescriptor 1 (some id)
    runStages tested (some id) stages
where
  /-- The shell with its standard input from somewhere else, if it has to be. -/
  withInput (input : Option OpenId) (s : Shell) : Shell :=
    match input with
    | some id => s.setDescriptor 0 (some id)
    | none => s

/-- Runs a command in the background: to its end, which only `wait` tells. -/
def runBackground (c : Command) : Sh Nat := do
  let (process, status) ← i.inProcess (i.command c ⟨false, true⟩) fun s =>
    let (id, s) := s.openTarget .nothing
    s.setDescriptor 0 (some id)
  modify fun s => { s with jobs := (process, status.code) :: s.jobs, lastJob := some process }
  return 0

/-- Runs a subshell. -/
def runSubshell (mode : Mode) (line : Nat) (body : Command) (redirections : List Redirection) :
    Sh Nat := do
  modify fun s => { s with line }
  let redirected ← redirections.mapM i.redirected
  let step : Sh Nat := do
    redirected.forM Redirected.carryOut
    i.command body ⟨mode.tested, true⟩
  if mode.last && !hasTraps (← get) then step else statusApart i step id

/-- Runs the turns of `for`. -/
def runEach (name : String) (body : Command) (tested : Bool) : List ByteText → Nat → Sh Nat
  | [], status => return status
  | value :: values, _ => do
    Sh.assign name value false
    let status ← i.command body ⟨tested, false⟩
    if (← Sh.loopStep) = .leave then return status else runEach name body tested values status

/-- Runs the turns of `while` and `until`. -/
def runRepeated (wanted : Bool) (test body : Command) (tested : Bool) : Sh Nat :=
  Sh.loop (fun status => do
    let found ← i.command test .test
    let returns := match (← get).skip with
      | some (.return _) => true
      | _ => false
    match ← Sh.loopStep with
    | .leave => return (if returns then found else status, false)
    | .nextTurn => return (status, true)
    | .goOn =>
      if (found == 0) != wanted then return (status, false)
      let status ← i.command body ⟨tested, false⟩
      return (status, (← Sh.loopStep) != .leave)) Sh.loopBound 0

/-- The body of the first clause with a pattern that matches. -/
def clauseFor (text : ByteText) : List (List Word × Command) → Sh (Option Command)
  | [] => return none
  | (patterns, body) :: clauses => do
    if ← matchesAny patterns then return some body else clauseFor text clauses
where
  /-- Whether one of the patterns matches. -/
  matchesAny : List Word → Sh Bool
    | [] => return false
    | w :: ws => do
      if (← i.patternOf w).matchesText text then return true else matchesAny ws

/-! ## All commands -/

/-- Runs a command; none if the status is not to be set anew. -/
def runKind (mode : Mode) : Command → Sh (Nat × Bool)
  | .nothing => return (0, false)
  | .simple line assignments words redirections =>
    return (← runSimple i mode line assignments words redirections, true)
  | .function name body => do
    modify fun s => { s with functions := Table.insert s.functions name body }
    return (0, true)
  | .pipeline stages => return (← runStages i mode.tested none stages, true)
  | .negation c => do
    let status ← i.command c .test
    if (← get).skip.isSome then return (status, true)
    return (if status = 0 then 1 else 0, true)
  | .both first second => do
    let status ← i.command first .test
    if status ≠ 0 ∨ (← get).skip.isSome then return (status, false)
    return (← i.command second mode, true)
  | .either first second => do
    let status ← i.command first .test
    if status = 0 ∨ (← get).skip.isSome then return (status, false)
    return (← i.command second mode, true)
  | .sequence first second => do
    let status ← i.command first ⟨mode.tested, false⟩
    if (← get).skip.isSome then return (status, false)
    return (← i.command second mode, true)
  | .background line c => do
    modify fun s => { s with line }
    return (← runBackground i c, true)
  | .subshell line body redirections => return (← runSubshell i mode line body redirections, true)
  | .redirected line body redirections => do
    modify fun s => { s with line }
    let redirected ← redirections.mapM i.redirected
    let step : Sh Nat := do
      if ← Redirected.carryOutAll redirected then i.command body ⟨mode.tested, false⟩ else return 2
    let saved := (← get).saved (redirected.map Redirected.descriptor)
    return (← Sh.andThen step fun s => s.restore saved, true)
  | .conditional test yes no => do
    let status ← i.command test .test
    if (← get).skip.isSome then return (status, false)
    match if status = 0 then yes else no with
    | .nothing => return (0, true)
    | branch => return (← i.command branch mode, true)
  | .repeated wanted test body =>
    return (← Sh.inLoop (runRepeated i wanted test body mode.tested), true)
  | .each line name words body => do
    modify fun s => { s with line }
    let values ← words.mapM i.fields
    return (← Sh.inLoop (runEach i name body mode.tested values.flatten 0), true)
  | .choice line w clauses => do
    modify fun s => { s with line }
    let text ← i.single w
    match ← clauseFor i text clauses with
    | none | some .nothing => return (0, true)
    | some body => return (← i.command body mode, true)

/-- Whether the failure of a command ends the shell with the option `e`. -/
def endsOnFailure : Command → Bool
  | .simple .. | .pipeline _ | .subshell .. | .background .. => true
  | _ => false

/-- Runs a command. -/
def runCommand (c : Command) (mode : Mode) : Sh Nat := do
  if (← get).hasOption 'n' then return 0
  i.runTraps
  let (status, sets) ← runKind i mode c
  if sets then modify fun s => { s with status }
  let s ← get
  if s.hasOption 'e' && !mode.tested && status != 0 && endsOnFailure c then throw (.exit status)
  i.runTraps
  match c with
  | .nothing => return 0
  | _ => return (← get).status

end Interpreter

end Script

end ValueShell
