/-
  Everything that running code can see or change, as one value.

  Variables and scopes, the contents of the streams, the cache of modules, the environment and the
  files.  An operation is a function from one world to the next.

  The world also keeps a JOURNAL of what happened in it.  Code cannot look at the journal: it is there
  for whoever asks afterwards, since a failure that a `try` absorbed leaves no other trace.
-/
import ValueShell.Module.Cache
import ValueShell.Operation.Tree
import ValueShell.Store
import ValueShell.World.Environment
import ValueShell.World.FileTree
import ValueShell.World.Streams

namespace ValueShell

/-- Something that happened while code ran. -/
inductive Event
  /-- an operation failed with this fault -/
  | raised (fault : Fault)
  /-- the code of the module at a path started to run -/
  | running (path : String) (code : Operation)
  /-- the code of the module at a path ran to its end -/
  | loaded (path : String)
  /-- the load of the module at a path ended early -/
  | failed (path : String)
  /-- an import of the module at a path succeeded, with this namespace -/
  | imported (path : String) (ns : ScopeId)

/-- The state that evaluation changes. -/
structure World where
  store : Store
  streams : Streams
  modules : ModuleCache
  environment : Environment
  files : FileTree
  /-- what happened so far, the latest first -/
  journal : List Event
deriving Inhabited

namespace World

/-- The world at the start: no variables, no output, no modules. -/
def start (environment : Environment) (files : FileTree) : World :=
  ⟨.empty, .empty, [], environment, files, []⟩

/-- The world with one more event in its journal. -/
def note (w : World) (e : Event) : World := { w with journal := e :: w.journal }

end World

end ValueShell
