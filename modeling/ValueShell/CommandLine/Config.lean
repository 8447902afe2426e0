/-
  The settings of a run, from the command line and the environment.

  Options come first; the first argument that is none of them names a script, and everything after it
  belongs to the script.  The library directory is the one given by `--lib=`, else the one in
  `VESH_LIB` unless that is empty, else `.vesh/lib` in the home directory.
-/
import ValueShell.Report.Rendering

namespace ValueShell

/-- Where the code to run comes from. -/
inductive Input
  | standardInput
  | code (code : String)
  | script (path : String) (args : List String)
deriving DecidableEq, Repr, Inhabited

/-- The settings of a run. -/
structure Config where
  libDir : Option String
  color : ColorMode
  input : Input
deriving DecidableEq, Repr, Inhabited

/-- What the command line asks for. -/
inductive Request
  | run (config : Config)
  | help
deriving DecidableEq, Repr, Inhabited

/-- What is wrong with a command line. -/
inductive UsageError
  | missingCode
  | argumentAfterCode (arg : String)
  | unknownOption (arg : String)
  | unknownColor (word : String)
deriving DecidableEq, Repr, Inhabited

/-- The wording of an error. -/
def UsageError.message : UsageError → String
  | missingCode => "-c needs an argument"
  | argumentAfterCode arg => "unexpected argument '" ++ arg ++ "' after -c"
  | unknownOption arg => "unknown option '" ++ arg ++ "'"
  | unknownColor word =>
    "invalid --color value '" ++ word ++ "' (expected auto, always or never)"

/-- How the program is used. -/
def usage : String :=
  "Usage: vesh [options] [script [args...]]\n" ++
  "       vesh [options] -c <code>\n" ++
  "\n" ++
  "Options:\n" ++
  "  --lib=<dir>      Library directory for `use`\n" ++
  "                   (default: $VESH_LIB, then ~/.vesh/lib)\n" ++
  "  --color=<when>   Color diagnostics: auto, always, never\n" ++
  "  -c <code>        Run <code> instead of a script\n" ++
  "  -h, --help       Show this message\n" ++
  "\n" ++
  "With neither a script nor -c, code is read from stdin."

namespace ColorMode

/-- The mode that a word stands for. -/
def ofWord : String → Except UsageError ColorMode
  | "auto" => .ok auto
  | "always" => .ok always
  | "never" => .ok never
  | word => .error (.unknownColor word)

end ColorMode

/-- What follows `start` in a text that starts so. -/
def afterStart? (start text : String) : Option String :=
  if start.toList.isPrefixOf text.toList then
    some (String.ofList (text.toList.drop start.toList.length))
  else none

/-- What the options read so far say. -/
structure Options where
  libFlag : Option String
  color : ColorMode
deriving DecidableEq, Repr, Inhabited

/-- What the arguments ask for; none stands for the help text. -/
def readArguments (options : Options) : List String →
    Except UsageError (Option (Options × Input))
  | [] => .ok (some (options, .standardInput))
  | arg :: args =>
    match afterStart? "--lib=" arg, afterStart? "--color=" arg with
    | some dir, _ => readArguments { options with libFlag := some dir } args
    | none, some word =>
      match ColorMode.ofWord word with
      | .error e => .error e
      | .ok color => readArguments { options with color } args
    | none, none =>
      if arg = "-h" ∨ arg = "--help" then .ok none
      else if arg = "-c" then
        match args with
        | [] => .error .missingCode
        | [code] => .ok (some (options, .code code))
        | _ :: extra :: _ => .error (.argumentAfterCode extra)
      else if arg.toList.head? = some '-' then .error (.unknownOption arg)
      else .ok (some (options, .script arg args))

/-- The library directory, `flag` being the one given as an option. -/
def chooseLibDir (flag : Option String) (lookup : String → Option String) : Option String :=
  (flag.or ((lookup "VESH_LIB").filter (· ≠ ""))).or
    ((lookup "HOME").map fun home => joinPath (joinPath home ".vesh") "lib")

/-- What a command line asks for, in an environment. -/
def Request.ofArguments (args : List String) (lookup : String → Option String) :
    Except UsageError Request :=
  (readArguments ⟨none, .auto⟩ args).map fun
    | none => .help
    | some (options, input) =>
      .run ⟨chooseLibDir options.libFlag lookup, options.color, input⟩

end ValueShell
