/-
  What processes share: the files, and what has been opened.

  A descriptor of a process is a number for an `OpenFile`, which may be shared with other processes,
  so that what one of them reads or writes is not read or overwritten by the others.  Processes run
  one after the other; a pipe is a `stream`, which has been written in full before it is read.
-/
import ValueShell.Text.Bytes
import ValueShell.World.FileTree

namespace ValueShell

namespace Script

/-- What stands behind an open file. -/
inductive Target
  | nothing
  /-- a directory, which cannot be read as a file -/
  | directory
  /-- bytes that are read in the order in which they are written: those to be read next, and the
  later ones in reverse, a list for every time that something was written -/
  | stream (ready : List UInt8) (written : List (List UInt8))
  /-- a file, by the names that lead to it, and how far it has been read or written -/
  | file (names : List String) (position : Nat) (append : Bool)
deriving Inhabited

/-- The bytes of a stream, and nothing written after them. -/
def Target.gathered (ready : List UInt8) (written : List (List UInt8)) : List UInt8 :=
  ready ++ written.reverse.flatten

/-- The number of an open file. -/
structure OpenId where
  index : Nat
deriving DecidableEq, Repr, Inhabited

/-- What processes share. -/
structure System where
  files : FileTree
  opened : Array Target
  lastProcess : Nat
  /-- the shells that are running -/
  alive : List Nat
  /-- signals on their way, each with the process that it is for -/
  signals : List (Nat × Nat)
deriving Inhabited

namespace System

/-- Opens something. -/
def openTarget (s : System) (target : Target) : OpenId × System :=
  (⟨s.opened.size⟩, { s with opened := s.opened.push target })

/-- The bytes of the file at the end of a path of names. -/
def fileBytes (s : System) (names : List String) : List UInt8 :=
  match s.files.at? names with
  | some node => (FileTree.nodeBytes node).toOption.getD []
  | none => []

/-- `old` with `new` written over it from a position on. -/
def overwrite (old : List UInt8) (position : Nat) (new : List UInt8) : List UInt8 :=
  old.take position ++ List.replicate (position - old.length) 0 ++ new ++
    old.drop (position + new.length)

/-- Writes to an open file. -/
def write (s : System) (id : OpenId) (bytes : List UInt8) : System :=
  match s.opened[id.index]? with
  | some (.stream ready written) =>
    { s with opened := s.opened.setIfInBounds id.index (.stream ready (bytes :: written)) }
  | some (.file names position append) =>
    match s.files.at? names with
    | some (.file old executable) =>
      let position := if append then old.length else position
      let node := FileNode.file (overwrite old position bytes) executable
      { s with
        files := s.files.putAt names node
        opened :=
          s.opened.setIfInBounds id.index (.file names (position + bytes.length) append) }
    | _ => s
  | _ => s

/-- Everything that is left to be read of an open file. -/
def left (s : System) (id : OpenId) : List UInt8 :=
  match s.opened[id.index]? with
  | some (.stream ready written) => Target.gathered ready written
  | some (.file names position _) => (s.fileBytes names).drop position
  | _ => []

/-- Counts bytes of an open file as read; `rest` are the ones that are left. -/
def skipTo (s : System) (id : OpenId) (rest : List UInt8) : System :=
  match s.opened[id.index]? with
  | some (.stream ..) => { s with opened := s.opened.setIfInBounds id.index (.stream rest []) }
  | some (.file names _ append) =>
    let position := (s.fileBytes names).length - rest.length
    { s with opened := s.opened.setIfInBounds id.index (.file names position append) }
  | _ => s

/-- A number for a new process. -/
def newProcess (s : System) : Nat × System :=
  (s.lastProcess + 1, { s with lastProcess := s.lastProcess + 1 })

end System

end Script

end ValueShell
