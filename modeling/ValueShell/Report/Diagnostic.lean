/-
  Reports of failures.

  A report has a title that says what kind of failure it is, a message, the region of the source it is
  about, and notes.  All failures of a unit are reported in this one form.
-/
import ValueShell.Session.Basic

namespace ValueShell

/-- The kinds of reports. -/
inductive Severity
  | parseError
  | compileError
  | exception
  | warning
deriving DecidableEq, Repr, Inhabited

/-- The title of a report. -/
def Severity.title : Severity → String
  | parseError => "parse error"
  | compileError => "compile error"
  | exception => "exception"
  | warning => "warning"

/-- A report. -/
structure Diagnostic where
  severity : Severity
  message : String
  /-- the code the report is about, with the region in it -/
  excerpt : Option (Source × Span)
  notes : List String
deriving Repr, Inhabited

/-- The report of a failure. -/
def UnitError.diagnostic : UnitError → Diagnostic
  | parse source e => ⟨.parseError, e.problem.message, some (source, e.span), []⟩
  | compile source e => ⟨.compileError, e.problem.message, some (source, e.span), []⟩
  | exception e =>
    match e.site with
    | none => ⟨.exception, e.fault.message, none, []⟩
    | some site =>
      ⟨.exception, e.fault.message, some (site.source, site.span), ["in " ++ site.label]⟩

end ValueShell
