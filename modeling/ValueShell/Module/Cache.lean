/-
  The cache of modules.

  A module path is loaded at most once.  While its code runs, its entry is LOADING and holds the
  namespace that the code fills; when the code has run to its end, the entry is LOADED with that
  same namespace.  A load that fails leaves no entry, so that a later import can try again.

  Stages of a pipeline may import at the same time.  An import that finds its module loading
  elsewhere waits for that load to end, and `setWaiting` records this with every module whose load
  thereby waits.  It must not wait for a load that cannot end before itself: that is what
  `waitsOnSelf` finds, and such an import takes the namespace as it is.
-/
import ValueShell.Value.Basic

namespace ValueShell

/-- The entry of a module. -/
inductive ModuleEntry
  /-- its code is running and fills the namespace; `waitingOn` has a path for every part of the load
  that waits for that module -/
  | loading (ns : ScopeId) (waitingOn : List String)
  | loaded (ns : ScopeId)
deriving DecidableEq, Repr, Inhabited

/-- The namespace of a module, finished or not. -/
def ModuleEntry.namespace : ModuleEntry → ScopeId
  | loading ns _ | loaded ns => ns

/-- The modules that are loaded or being loaded, by path. -/
abbrev ModuleCache := Table ModuleEntry

namespace ModuleCache

/-- The namespace of the module at a path, if the module has an entry. -/
def namespaceOf? (cache : ModuleCache) (path : String) : Option ScopeId :=
  (Table.find? cache path).map ModuleEntry.namespace

theorem namespaceOf?_insert (cache : ModuleCache) (path : String) (entry : ModuleEntry)
    (other : String) :
    namespaceOf? (Table.insert cache path entry) other =
      if path = other then some entry.namespace else cache.namespaceOf? other := by
  rw [namespaceOf?, Table.find?_insert]
  split <;> rfl

theorem namespaceOf?_erase (cache : ModuleCache) (path other : String) :
    namespaceOf? (Table.erase cache path) other =
      if path = other then none else cache.namespaceOf? other := by
  rw [namespaceOf?, Table.find?_erase]
  split <;> rfl

/-- The modules that the load of `path` waits for. -/
def waitedFor (cache : ModuleCache) (path : String) : List String :=
  match Table.find? cache path with
  | some (.loading _ waitingOn) => waitingOn
  | _ => []

/-- The paths of `found` that were not seen before, each once, and all paths seen. -/
def unseen (seen : List String) : List String → List String × List String
  | [] => ([], seen)
  | path :: rest =>
    if seen.contains path then unseen seen rest
    else
      let (more, seen) := unseen (path :: seen) rest
      (path :: more, seen)

/-- Every path that some entry waits for, with repetitions. -/
def allWaitedFor (cache : ModuleCache) : List String :=
  cache.flatMap fun (_, entry) =>
    match entry with
    | .loading _ waitingOn => waitingOn
    | .loaded _ => []

/-- Searches the modules that the pending ones wait for, through any chain of waits, for one of
`loading`.  A path becomes pending once at most; `steps` bounds how many are looked at. -/
def search (cache : ModuleCache) (loading : List String) :
    Nat → List String → List String → Bool
  | 0, _, _ => false
  | _ + 1, _, [] => false
  | steps + 1, seen, path :: pending =>
    if loading.contains path then true
    else
      let (more, seen) := unseen seen (waitedFor cache path)
      search cache loading steps seen (more.reverse ++ pending)

/-- Whether waiting for `path` would wait for one of the modules `loading`, whose loads cannot end
before this import does. -/
def waitsOnSelf (cache : ModuleCache) (path : String) (loading : List String) : Bool :=
  search cache loading ((allWaitedFor cache).length + 2) [] [path]

/-- Removes one occurrence of `path`, which the last item takes the place of. -/
def removeOne (path : String) (paths : List String) : List String :=
  match paths.idxOf? path with
  | none => paths
  | some i =>
    match paths.getLast? with
    | none => paths
    | some last => (paths.set i last).dropLast

/-- Records, or clears, that the loads of the modules `loading` wait for `path`. -/
def setWaiting (cache : ModuleCache) (loading : List String) (path : String) (waiting : Bool) :
    ModuleCache :=
  loading.foldl
    (fun cache module =>
      match Table.find? cache module with
      | some (.loading ns waitingOn) =>
        let waitingOn := if waiting then waitingOn ++ [path] else removeOne path waitingOn
        Table.insert cache module (.loading ns waitingOn)
      | _ => cache)
    cache

/-- What an import finds. -/
inductive Found
  | finished (ns : ScopeId)
  /-- the import is part of the load it asks for, and takes the namespace as it is -/
  | unfinished (ns : ScopeId)
  /-- another stage is loading the module -/
  | busy
  | absent
deriving DecidableEq, Repr, Inhabited

/-- Looks for the module at `path`, for an import that runs inside the loads `loading`. -/
def request (cache : ModuleCache) (path : String) (loading : List String) : Found :=
  match Table.find? cache path with
  | none => .absent
  | some (.loaded ns) => .finished ns
  | some (.loading ns _) => if waitsOnSelf cache path loading then .unfinished ns else .busy

/-- The module at a path is being loaded. -/
def IsLoading (cache : ModuleCache) (path : String) : Prop :=
  ∃ ns waitingOn, Table.find? cache path = some (.loading ns waitingOn)

/-- The cache when the load of a module has ended, well or badly. -/
def endLoad (cache : ModuleCache) (path : String) (ns : ScopeId) (succeeds : Bool) : ModuleCache :=
  if succeeds then Table.insert cache path (.loaded ns) else Table.erase cache path

/-- The paths of the modules that are loaded, ascending. -/
def loadedPaths (cache : ModuleCache) : List String :=
  cache.filterMap fun (path, entry) =>
    match entry with
    | .loaded _ => some path
    | .loading .. => none

end ModuleCache

end ValueShell
