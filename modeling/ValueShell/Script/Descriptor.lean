/-
  Descriptors: opening files, and redirections.

  All words of a command's redirections are expanded before the first of them is carried out.  What a
  redirection does to a descriptor lasts as long as the command; `restore` then puts back what the
  descriptors stood for before.
-/
import ValueShell.Script.Expansion

namespace ValueShell

namespace Script

/-- The words of an error, with `missing` for all errors that say that there is nothing of that
name. -/
def failureText (missing : String) (e : FileError) : String :=
  match e with
  | .notFound | .notADirectory => missing
  | _ => e.text

/-- A redirection whose words have been expanded. -/
inductive Redirected
  | file (descriptor : Nat) (mode : OpenMode) (path : ByteText)
  /-- without a source the descriptor is closed -/
  | copy (descriptor : Nat) (source : Option Nat)
  | document (descriptor : Nat) (text : ByteText)
deriving Inhabited

/-- The descriptor that a redirection is for. -/
def Redirected.descriptor : Redirected → Nat
  | file d _ _ => d
  | copy d _ => d
  | document d _ => d

namespace Shell

/-- Opens something. -/
def openTarget (s : Shell) (target : Target) : OpenId × Shell :=
  let (id, system) := s.system.openTarget target
  (id, { s with system })

/-- Opens an existing file. -/
def openNode (s : Shell) (mode : OpenMode) (names : List String) (node : FileNode) :
    Except FileError (OpenId × Shell) :=
  match node with
  | .device .null => .ok (s.openTarget .nothing)
  | .device (.descriptor n) =>
    match s.descriptor? n with
    | some id => .ok (id, s)
    | none => .error .notFound
  | .directory _ => if mode = .read then .ok (s.openTarget .directory) else .error .isADirectory
  | .program _ =>
    if mode = .read then .ok (s.openTarget (.file names 0 false)) else .error .permissionDenied
  | .file _ executable =>
    let emptied : Shell :=
      { s with
        system := { s.system with files := s.system.files.putAt names (.file [] executable) } }
    match mode with
    | .read | .readWrite => .ok (s.openTarget (.file names 0 false))
    | .append => .ok (s.openTarget (.file names 0 true))
    | .overwrite => .ok (emptied.openTarget (.file names 0 false))
    | .write =>
      if s.hasOption 'C' then .error .alreadyExists
      else .ok (emptied.openTarget (.file names 0 false))

/-- Opens a file, which is made if it is to be written and does not exist. -/
def openFile (s : Shell) (mode : OpenMode) (path : ByteText) : Except FileError (OpenId × Shell) :=
  let path := ByteText.toString path
  match s.system.files.locate path with
  | .ok (names, node) => s.openNode mode names node
  | .error .notFound =>
    if mode = .read then .error .notFound
    else do
      let names ← s.system.files.placeFor path
      let files := s.system.files.putAt names (.file [] false)
      return openTarget { s with system := { s.system with files } } (.file names 0 (mode == .append))
  | .error e => .error e

/-- The named descriptors as they are. -/
def saved (s : Shell) (numbers : List Nat) : List (Nat × Option OpenId) :=
  numbers.map fun n => (n, s.descriptor? n)

/-- Puts descriptors back. -/
def restore (s : Shell) (saved : List (Nat × Option OpenId)) : Shell :=
  saved.foldl (fun s (n, id) => s.setDescriptor n id) s

/-- Everything that is left to be read from a descriptor. -/
def left (s : Shell) (number : Nat) : List UInt8 :=
  match s.descriptor? number with
  | some id => s.system.left id
  | none => []

/-- Counts bytes of a descriptor as read; `rest` are the ones that are left. -/
def skipTo (s : Shell) (number : Nat) (rest : List UInt8) : Shell :=
  match s.descriptor? number with
  | some id => { s with system := s.system.skipTo id rest }
  | none => s

end Shell

namespace Redirected

/-- Carries a redirection out. -/
def carryOut : Redirected → Sh Unit
  | file d mode path => do
    match (← get).openFile mode path with
    | .ok (id, s) => set (s.setDescriptor d (some id))
    | .error e =>
      let name := Sh.shown path
      if mode = .read then Sh.fail ("cannot open " ++ name ++ ": " ++ failureText "No such file" e)
      else Sh.fail ("cannot create " ++ name ++ ": " ++ failureText "Directory nonexistent" e)
  | copy d none => modify fun s => s.setDescriptor d none
  | copy d (some source) => do
    if source = d then return ()
    match (← get).descriptor? source with
    | some id => modify fun s => s.setDescriptor d (some id)
    | none => Sh.fail (toString source ++ ": Bad file descriptor")
  | document d text =>
    modify fun s =>
      let (id, s) := s.openTarget (.stream (ByteText.toBytes text) [])
      s.setDescriptor d (some id)

/-- Carries redirections out; false if one of them could not be. -/
def carryOutAll (rs : List Redirected) : Sh Bool := do
  match ← Sh.settle (rs.forM carryOut) with
  | .ok () => return true
  | .error (.failed _) => return false
  | .error jump => throw jump

end Redirected

/-- Expands the words of a redirection. -/
def Interpreter.redirected (i : Interpreter) : Redirection → Sh Redirected
  | .file d mode path => return .file d mode (← i.single path)
  | .copy d source => do
    match ← i.single source with
    | ['-'] => return .copy d none
    | [c] =>
      if c.isDigit then return .copy d (some (c.toNat - '0'.toNat))
      else Sh.failSyntax Problem.badDescriptor.message
    | _ => Sh.failSyntax Problem.badDescriptor.message
  | .document d number => do
    let text ← i.documentText ((← get).input.documents.getD number [])
    return .document d text

end Script

end ValueShell
