/-
  How processes end.

  A process ends with a code of its own, or by a signal.  Signals have numbers and names; what a
  process that does nothing about a signal does is decided by its number alone.
-/

namespace ValueShell

/-- How a process ended. -/
inductive ExitStatus
  | exited (code : Nat)
  | killed (signal : Nat)
deriving DecidableEq, Repr, Inhabited

namespace Signal

/-- The signals from 1 on: the name, and the words for a process that was ended by it. -/
def names : List (String × String) :=
  [("HUP", "Hangup"), ("INT", "Interrupt"), ("QUIT", "Quit"), ("ILL", "Illegal instruction"),
   ("TRAP", "Trace/breakpoint trap"), ("ABRT", "Aborted"), ("BUS", "Bus error"),
   ("FPE", "Floating point exception"), ("KILL", "Killed"), ("USR1", "User defined signal 1"),
   ("SEGV", "Segmentation fault"), ("USR2", "User defined signal 2"), ("PIPE", "Broken pipe"),
   ("ALRM", "Alarm clock"), ("TERM", "Terminated"), ("STKFLT", "Stack fault"),
   ("CHLD", "Child exited"), ("CONT", "Continued"), ("STOP", "Stopped (signal)"),
   ("TSTP", "Stopped"), ("TTIN", "Stopped (tty input)"), ("TTOU", "Stopped (tty output)"),
   ("URG", "Urgent I/O condition"), ("XCPU", "CPU time limit exceeded"),
   ("XFSZ", "File size limit exceeded"), ("VTALRM", "Virtual timer expired"),
   ("PROF", "Profiling timer expired"), ("WINCH", "Window changed"), ("IO", "I/O possible"),
   ("PWR", "Power failure"), ("SYS", "Bad system call")]

/-- The greatest number of a signal. -/
def greatest : Nat := 64

/-- The name of a signal. -/
def name? (signal : Nat) : Option String :=
  if signal = 0 then none else (names[signal - 1]?).map Prod.fst

/-- The words for a process that was ended by a signal. -/
def description (signal : Nat) : String :=
  match if signal = 0 then none else names[signal - 1]? with
  | some (_, words) => words
  | none =>
    if 34 ≤ signal ∧ signal ≤ greatest then "Real-time signal " ++ toString (signal - 34)
    else "Unknown signal " ++ toString signal

/-- Whether a process that does nothing about a signal goes on: its child has ended, it is told to go
on, or a stop that nothing would ever end. -/
def isHarmless (signal : Nat) : Bool := [17, 18, 19, 20, 21, 22, 23, 28].contains signal

end Signal

namespace ExitStatus

/-- How a status is shown. -/
def text : ExitStatus → String
  | exited code => "exit status: " ++ toString code
  | killed signal =>
    "signal: " ++ toString signal ++
      (match Signal.name? signal with
        | some name => " (SIG" ++ name ++ ")"
        | none => "")

/-- Whether the process succeeded. -/
def isSuccess (s : ExitStatus) : Bool := s == exited 0

/-- The number that a shell knows a status by. -/
def code : ExitStatus → Nat
  | exited code => code
  | killed signal => 128 + signal

end ExitStatus

end ValueShell
