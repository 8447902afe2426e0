/-
  The command `vesh`.

  Everything is decided by `Program.run`.  Here its arguments are gathered: the environment, standard
  input, and the files that the run may look at, which are those below the working directory and below
  the library directory.
-/
import ValueShell.CommandLine.Program

namespace ValueShell

namespace Main

/-- How deep below a directory files are gathered. -/
def depthLimit : Nat := 8

/-- Reads everything from a stream. -/
partial def readAll (stream : IO.FS.Stream) (before : ByteArray) : IO ByteArray := do
  let bytes ← stream.read 65536
  if bytes.isEmpty then return before else readAll stream (before ++ bytes)

/-- How large a file may be whose bytes are gathered, if it is not a module. -/
def sizeLimit : Nat := 1048576

/-- Whether the bytes of the file of this name are gathered. -/
def isGathered (name : String) (bytes : ByteArray) : Bool :=
  name.endsWith ("." ++ Library.extension) || bytes.size ≤ sizeLimit

/-- The node of a directory entry; what cannot be read counts as an empty file. -/
partial def readEntry (depth : Nat) (entry : IO.FS.DirEntry) : IO (String × FileNode) := do
  try
    if ← entry.path.isDir then
      if depth = 0 then return (entry.fileName, .directory [])
      let entries ← entry.path.readDir
      let nodes ← entries.toList.mapM (readEntry (depth - 1))
      return (entry.fileName, .directory (Table.ofList nodes))
    else
      let bytes ← IO.FS.readBinFile entry.path
      return (entry.fileName, .file (if isGathered entry.fileName bytes then bytes.toList else []) true)
  catch _ => return (entry.fileName, .file [] false)

/-- The files below a directory, seen from the working directory. -/
def readBelow (files : FileTree) (directory : String) : IO FileTree := do
  try
    let entries ← ((← IO.currentDir) / directory).readDir
    let nodes ← entries.toList.mapM (readEntry depthLimit)
    return files.put directory (.directory (Table.ofList nodes))
  catch _ => return files

/-- The tree with the script of a run in it. -/
def readScript (files : FileTree) : Input → IO FileTree
  | .script path _ => do
    try
      let bytes := (← IO.FS.readBinFile path).toList
      return files.put path (.file bytes false)
    catch _ => return files
  | _ => return files

/-- Standard input: the code that is to run, or what its commands can read.  A terminal is left alone
unless the code is to come from there. -/
def readInput (source : Input) : IO ByteArray := do
  let stream ← IO.getStdin
  let isSource := match source with
    | .standardInput => true
    | _ => false
  if isSource || !(← stream.isTty) then readAll stream ByteArray.empty else return ByteArray.empty

/-- The environment of this process. -/
def readEnvironment : IO Environment := do
  let bytes ← IO.FS.readBinFile "/proc/self/environ"
  let lines := splitOn '\x00' (Utf8.decodeLossy bytes.toList)
  let entries := lines.filterMap fun line =>
    (splitAtFirst '=' line).map fun (name, text) => (String.ofList name, String.ofList text)
  return ⟨Table.ofList entries⟩

/-- The number of this process. -/
def readProcessId : IO String := do
  let text ← IO.FS.readFile "/proc/self/stat"
  return String.ofList (text.toList.takeWhile Char.isDigit)

/-- The files that a run may look at. -/
def readFiles (config : Config) : IO FileTree := do
  let here := (← IO.currentDir).toString
  let names := ((splitOn '/' here.toList).filter (· ≠ [])).map String.ofList
  let files ← readBelow (.empty names) ""
  let files ← match config.libDir with
    | some directory => readBelow files directory
    | none => pure files
  readScript files config.input

end Main

end ValueShell

open ValueShell in
/-- Runs the program on the arguments of this process. -/
def main (args : List String) : IO UInt32 := do
  let environment ← Main.readEnvironment
  let (files, input) ← match Program.config? args environment with
    | none => pure (FileTree.empty [], [])
    | some config => do
      let files ← Main.readFiles config
      let input ← Main.readInput config.input
      pure (files, input.toList)
  let onTerminal ← (← IO.getStderr).isTty
  let result := Program.run args environment files input (← Main.readProcessId) onTerminal
  (← IO.getStdout).write ⟨result.standardOutput.toArray⟩
  (← IO.getStdout).flush
  (← IO.getStderr).write ⟨result.standardError.toArray⟩
  return UInt32.ofNat result.exitCode
