/-
  The builtin commands.

  A closed set, listed in the order of their names.  Each is bound in the builtin scope under its
  name with the function suffix; what they do is part of the evaluator.
-/

namespace ValueShell

/-- The builtin commands. -/
inductive Builtin
  | add
  | subtract
  | less
  | numbersEqual
  | all
  | toBool
  | break
  | continue
  | count
  | each
  | echo
  | equal
  | exit
  | external
  | fail
  | fromJson
  | hasExternal
  | kindOf
  | nop
  | not
  | print
  | put
  | resolve
  | return
  | searchExternal
deriving DecidableEq, Repr, Inhabited

namespace Builtin

/-- The name a builtin is called by. -/
def name : Builtin → String
  | add => "+"
  | subtract => "-"
  | less => "<"
  | numbersEqual => "=="
  | all => "all"
  | toBool => "bool"
  | .break => "break"
  | .continue => "continue"
  | count => "count"
  | each => "each"
  | echo => "echo"
  | equal => "eq"
  | exit => "exit"
  | external => "external"
  | fail => "fail"
  | fromJson => "from-json"
  | hasExternal => "has-external"
  | kindOf => "kind-of"
  | nop => "nop"
  | not => "not"
  | print => "print"
  | put => "put"
  | resolve => "resolve"
  | .return => "return"
  | searchExternal => "search-external"

/-- All builtins, in the order of their names. -/
def list : List Builtin :=
  [add, subtract, less, numbersEqual, all, toBool, .break, .continue, count, each, echo, equal,
   exit, external, fail, fromJson, hasExternal, kindOf, nop, not, print, put, resolve, .return,
   searchExternal]

/-- The builtin called `name`. -/
def ofName? (name : String) : Option Builtin := list.find? fun b => b.name == name

/-- No builtin is missing from the list. -/
theorem mem_list (b : Builtin) : b ∈ list := by cases b <;> decide

end Builtin

end ValueShell
