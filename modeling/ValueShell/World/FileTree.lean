/-
  Files and directories.

  A tree of named nodes, with a working directory that paths not beginning with a slash start from.
  A path is walked one component after the other: an empty component and `.` stay, `..` goes up
  (and stays at the root), a name goes down.  Every component, even one that stays, needs a
  directory to be walked from, so `f/.` and `f/` fail where `f` is a file.

  Besides what a session is given, every tree holds the programs of the system and its devices.
-/
import ValueShell.Table
import ValueShell.Text.Slice
import ValueShell.Text.Split
import ValueShell.Text.Utf8

namespace ValueShell

/-- Why a file cannot be read, started or changed. -/
inductive FileError
  | notFound
  | argumentsTooLong
  | notAProgram
  | permissionDenied
  | alreadyExists
  | notADirectory
  | isADirectory
  | nameTooLong
  | notEmpty
  | tooManyLevels
  | nulInName
  | notText
deriving DecidableEq, Repr, Inhabited

/-- What is wrong, in words. -/
def FileError.text : FileError → String
  | notFound => "No such file or directory"
  | argumentsTooLong => "Argument list too long"
  | notAProgram => "Exec format error"
  | permissionDenied => "Permission denied"
  | alreadyExists => "File exists"
  | notADirectory => "Not a directory"
  | isADirectory => "Is a directory"
  | nameTooLong => "File name too long"
  | notEmpty => "Directory not empty"
  | tooManyLevels => "Too many levels of symbolic links"
  | nulInName => "file name contained an unexpected NUL byte"
  | notText => "stream did not contain valid UTF-8"

/-- The system's number of an error, if it has one. -/
def FileError.number? : FileError → Option Nat
  | notFound => some 2
  | argumentsTooLong => some 7
  | notAProgram => some 8
  | permissionDenied => some 13
  | alreadyExists => some 17
  | notADirectory => some 20
  | isADirectory => some 21
  | nameTooLong => some 36
  | notEmpty => some 39
  | tooManyLevels => some 40
  | nulInName => none
  | notText => none

/-- The wording of an error, with its number. -/
def FileError.message (e : FileError) : String :=
  match e.number? with
  | some n => e.text ++ " (os error " ++ toString n ++ ")"
  | none => e.text

/-- A file that is not stored. -/
inductive Device
  /-- always empty, and swallows what is written -/
  | null
  /-- what stands behind a descriptor of the process that opens it -/
  | descriptor (number : Nat)
deriving DecidableEq, Repr, Inhabited

/-- A file with its bytes, a directory with its entries, a program of the system, or a device. -/
inductive FileNode
  | file (bytes : List UInt8) (executable : Bool)
  | directory (entries : List (String × FileNode))
  | program (name : String)
  | device (device : Device)
deriving Inhabited

/-- A path seen from a directory: an absolute path stands for itself. -/
def joinPath (base path : String) : String :=
  if base = "" ∨ path.toList.head? = some '/' then path
  else if base.toList.getLast? = some '/' then base ++ path
  else base ++ "/" ++ path

namespace FileNode

/-- What has been walked: the directories above, innermost first, each with the name by which it was
left. -/
abbrev Trail := List (FileNode × String)

/-- The names along a trail, from the root. -/
def Trail.names (t : Trail) : List String := (t.map Prod.snd).reverse

/-- Walks from `node`, which lies at the end of `trail`. -/
def walk (trail : Trail) (node : FileNode) : List (List Char) → Except FileError (Trail × FileNode)
  | [] => .ok (trail, node)
  | component :: path =>
    match node with
    | directory entries =>
      if component = [] ∨ component = ['.'] then walk trail node path
      else if component = ['.', '.'] then
        match trail with
        | [] => walk [] node path
        | (parent, _) :: rest => walk rest parent path
      else if 255 < byteLength component then .error .nameTooLong
      else
        match Table.find? entries (String.ofList component) with
        | none => .error .notFound
        | some child => walk ((node, String.ofList component) :: trail) child path
    | _ => .error .notADirectory

/-- The node with `change` applied at the end of a path of names.  Directories on the way are made if
they are missing, and take the place of a file. -/
def update (change : Table FileNode → String → Table FileNode) (node : FileNode) :
    List String → FileNode
  | [] => node
  | name :: path =>
    let entries : Table FileNode := match node with
      | directory entries => entries
      | _ => []
    if path.isEmpty then directory (change entries name)
    else
      let child := (Table.find? entries name).getD (directory [])
      directory (Table.insert entries name (update change child path))

end FileNode

/-- The files that a run can see. -/
structure FileTree where
  root : FileNode
  /-- the names that lead from the root to the working directory -/
  workDir : List String
deriving Inhabited

namespace FileTree

/-! ## Looking up -/

/-- The longest path that is looked up, in bytes. -/
def longestPath : Nat := 4095

/-- Walks a path to its end. -/
def walk (t : FileTree) (path : String) : Except FileError (FileNode.Trail × FileNode) :=
  if path.toList.contains '\x00' then .error .nulInName
  else if path = "" then .error .notFound
  else if longestPath < byteLength path.toList then .error .nameTooLong
  else
    let components := splitOn '/' path.toList
    if path.toList.head? = some '/' then t.root.walk [] components
    else t.root.walk [] (t.workDir.map String.toList ++ components)

/-- The node at a path. -/
def find (t : FileTree) (path : String) : Except FileError FileNode := (t.walk path).map Prod.snd

/-- The names that lead from the root to what is at a path, and what is there. -/
def locate (t : FileTree) (path : String) : Except FileError (List String × FileNode) :=
  (t.walk path).map fun (trail, node) => (trail.names, node)

/-- The bytes that a node is read as. -/
def nodeBytes : FileNode → Except FileError (List UInt8)
  | .file bytes _ => .ok bytes
  | .directory _ => .error .isADirectory
  | .program name => .ok (Utf8.encode ("\x7fELF " ++ name).toList)
  | .device _ => .ok []

/-- The bytes of the file at a path. -/
def readBytes (t : FileTree) (path : String) : Except FileError (List UInt8) := do
  nodeBytes (← t.find path)

/-- The text of the file at a path. -/
def readText (t : FileTree) (path : String) : Except FileError String := do
  match Utf8.decode? (← t.readBytes path) with
  | some text => return String.ofList text
  | none => throw .notText

/-- Whether a path leads to a file that may be started. -/
def isExecutable (t : FileTree) (path : String) : Bool :=
  match t.find path with
  | .ok (.file _ executable) => executable
  | .ok (.program _) => true
  | _ => false

/-- The node at the end of a path of names from the root. -/
def at? (t : FileTree) (names : List String) : Option FileNode :=
  match t.root.walk [] (names.map String.toList) with
  | .ok (_, node) => some node
  | .error _ => none

/-- The names that lead from the root to a path at which something can be made: there is a directory
for it, and the last component is a name. -/
def placeFor (t : FileTree) (path : String) : Except FileError (List String) := do
  if path.toList.contains '\x00' then throw .nulInName
  if path = "" then throw .notFound
  if longestPath < byteLength path.toList then throw .nameTooLong
  let components := splitOn '/' path.toList
  let start := if path.toList.head? = some '/' then [] else t.workDir.map String.toList
  let (trail, node) ← t.root.walk [] (start ++ components.dropLast)
  match node, components.getLast? with
  | .directory _, some name =>
    if name = [] ∨ name = ['.'] ∨ name = ['.', '.'] then throw .isADirectory
    if 255 < byteLength name then throw .nameTooLong
    return trail.names ++ [String.ofList name]
  | _, _ => throw .notADirectory

/-! ## Changing -/

/-- Puts a node at the end of a path of names. -/
def putAt (t : FileTree) (names : List String) (node : FileNode) : FileTree :=
  { t with root := t.root.update (fun entries name => Table.insert entries name node) names }

/-- Removes what is at the end of a path of names. -/
def removeAt (t : FileTree) (names : List String) : FileTree :=
  { t with root := t.root.update (fun entries name => Table.erase entries name) names }

/-- The names that lead from the root to a path, if every name on the way is that of a directory. -/
def namesOf (t : FileTree) (path : String) : List String :=
  let start := if path.toList.head? = some '/' then [] else t.workDir
  (splitOn '/' path.toList).foldl
    (fun names component =>
      if component = [] ∨ component = ['.'] then names
      else if component = ['.', '.'] then names.dropLast
      else names ++ [String.ofList component])
    start

/-- Puts a node at a path; missing directories are made. -/
def put (t : FileTree) (path : String) (node : FileNode) : FileTree := t.putAt (t.namesOf path) node

/-- Removes what is at a path. -/
def remove (t : FileTree) (path : String) : FileTree := t.removeAt (t.namesOf path)

/-! ## The system's own files -/

/-- The names of the system's programs. -/
def programNames : List String :=
  ["[", "awk", "basename", "bash", "cat", "chmod", "cp", "cut", "dash", "date", "dd", "df", "diff",
   "dirname", "du", "echo", "env", "expr", "false", "find", "grep", "gzip", "head", "hostname", "id",
   "kill", "ln", "ls", "mkdir", "mktemp", "mv", "nl", "od", "paste", "perl", "printenv", "printf",
   "ps", "pwd", "readlink", "realpath", "rev", "rm", "rmdir", "sed", "seq", "sh", "sleep", "sort",
   "stat", "tac", "tail", "tar", "tee", "test", "touch", "tr", "true", "uname", "uniq", "wc",
   "which", "whoami", "xargs", "yes"]

/-- The directory of the system's programs. -/
def programDirectory : FileNode :=
  .directory (Table.ofList (programNames.map fun name => (name, .program name)))

/-- The directory of the devices. -/
def deviceDirectory : FileNode :=
  .directory
    [("null", .device .null), ("stderr", .device (.descriptor 2)),
     ("stdin", .device (.descriptor 0)), ("stdout", .device (.descriptor 1))]

/-- A tree that holds nothing but the system's own files and its working directory. -/
def empty (workDir : List String) : FileTree :=
  let tree : FileTree :=
    ⟨.directory
      [("bin", programDirectory), ("dev", deviceDirectory), ("etc", .directory []),
       ("root", .directory []), ("tmp", .directory []),
       ("usr", .directory [("bin", programDirectory)])],
      workDir⟩
  match tree.at? workDir with
  | some (.directory _) => tree
  | _ => tree.putAt workDir (.directory [])

end FileTree

end ValueShell
