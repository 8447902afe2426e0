import ValueShell.CommandLine.Config
import ValueShell.CommandLine.Program
import ValueShell.Eval.Assignment
import ValueShell.Eval.Basic
import ValueShell.Eval.Boundary
import ValueShell.Eval.Builtins
import ValueShell.Eval.Call
import ValueShell.Eval.Expression
import ValueShell.Eval.Frame
import ValueShell.Eval.Import
import ValueShell.Eval.Nesting
import ValueShell.Eval.Run
import ValueShell.Eval.Runner
import ValueShell.Eval.SpecialForm
import ValueShell.Failure.Fault
import ValueShell.Failure.Unwind
import ValueShell.Json.Document
import ValueShell.Json.Problem
import ValueShell.Json.Scalar
import ValueShell.Main
import ValueShell.Module.Cache
import ValueShell.Module.Library
import ValueShell.Module.Path
import ValueShell.Module.Stages
import ValueShell.Number.Binary64
import ValueShell.Number.Format
import ValueShell.Number.Numeral
import ValueShell.Number.Power
import ValueShell.Number.Shortest
import ValueShell.Operation.Code
import ValueShell.Operation.Compile
import ValueShell.Operation.Marks
import ValueShell.Operation.Problem
import ValueShell.Operation.Reference
import ValueShell.Operation.ScopeTable
import ValueShell.Operation.SpecialForms
import ValueShell.Operation.Tree
import ValueShell.Proofs.Agreement
import ValueShell.Proofs.AlikeEvaluation
import ValueShell.Proofs.AlikeStores
import ValueShell.Proofs.AlikeStreams
import ValueShell.Proofs.AlikeWorlds
import ValueShell.Proofs.AssignmentReading
import ValueShell.Proofs.AssignmentRuns
import ValueShell.Proofs.Blameless
import ValueShell.Proofs.BlockedPaths
import ValueShell.Proofs.BodiesOfForms
import ValueShell.Proofs.CapturedOutput
import ValueShell.Proofs.CanonicalPaths
import ValueShell.Proofs.CapturedScopes
import ValueShell.Proofs.Carried
import ValueShell.Proofs.Climbing
import ValueShell.Proofs.CompiledSpans
import ValueShell.Proofs.Composition
import ValueShell.Proofs.Conduct
import ValueShell.Proofs.ConductedEvaluation
import ValueShell.Proofs.Courses
import ValueShell.Proofs.DefinedFunctions
import ValueShell.Proofs.Deletions
import ValueShell.Proofs.Destinations
import ValueShell.Proofs.Discipline
import ValueShell.Proofs.ElementAssignment
import ValueShell.Proofs.ElementBlame
import ValueShell.Proofs.ElementRemoval
import ValueShell.Proofs.ElementPositions
import ValueShell.Proofs.EnclosedCourses
import ValueShell.Proofs.Evaluation
import ValueShell.Proofs.Evolution
import ValueShell.Proofs.ExactSpans
import ValueShell.Proofs.FailurePositions
import ValueShell.Proofs.Fillings
import ValueShell.Proofs.FixedBindings
import ValueShell.Proofs.Flow
import ValueShell.Proofs.FlowingEvaluation
import ValueShell.Proofs.GoingOn
import ValueShell.Proofs.Growth
import ValueShell.Proofs.HostedSessions
import ValueShell.Proofs.ImportedNames
import ValueShell.Proofs.JoinedText
import ValueShell.Proofs.JoinedUnits
import ValueShell.Proofs.KeptAssignments
import ValueShell.Proofs.KnownNames
import ValueShell.Proofs.LibraryPaths
import ValueShell.Proofs.Likeness
import ValueShell.Proofs.LineScans
import ValueShell.Proofs.ModuleCache
import ValueShell.Proofs.ModuleIsolation
import ValueShell.Proofs.NextLine
import ValueShell.Proofs.Passing
import ValueShell.Proofs.PipelineOutcomes
import ValueShell.Proofs.Places
import ValueShell.Proofs.Printing
import ValueShell.Proofs.Products
import ValueShell.Proofs.Provenance
import ValueShell.Proofs.ReadBack
import ValueShell.Proofs.ReaderLimits
import ValueShell.Proofs.ReaderRuns
import ValueShell.Proofs.Reading
import ValueShell.Proofs.ReadingEnds
import ValueShell.Proofs.ReadyEvaluations
import ValueShell.Proofs.ReceivedArguments
import ValueShell.Proofs.ScopeIrrelevance
import ValueShell.Proofs.ScopeSafety
import ValueShell.Proofs.Scoped
import ValueShell.Proofs.ScopedCompilation
import ValueShell.Proofs.ScopedEvaluation
import ValueShell.Proofs.SelfLikeness
import ValueShell.Proofs.SessionSafety
import ValueShell.Proofs.SessionStates
import ValueShell.Proofs.SharedModules
import ValueShell.Proofs.SignalBoundaries
import ValueShell.Proofs.Soundness
import ValueShell.Proofs.SuffixSafety
import ValueShell.Proofs.SuffixedNames
import ValueShell.Proofs.Triple
import ValueShell.Proofs.TryOutcomes
import ValueShell.Proofs.Underlines
import ValueShell.Proofs.WaitRecords
import ValueShell.Proofs.WaitSearch
import ValueShell.Proofs.WaitingStages
import ValueShell.Proofs.Watching
import ValueShell.Proofs.WholeStores
import ValueShell.Proofs.WrittenTargets
import ValueShell.Report.Diagnostic
import ValueShell.Report.Rendering
import ValueShell.Script.Arithmetic
import ValueShell.Script.Builtin
import ValueShell.Script.Builtin.Files
import ValueShell.Script.Builtin.Processes
import ValueShell.Script.Builtin.Variables
import ValueShell.Script.Condition
import ValueShell.Script.Descriptor
import ValueShell.Script.Execution
import ValueShell.Script.ExitStatus
import ValueShell.Script.Expansion
import ValueShell.Script.Fields
import ValueShell.Script.Format
import ValueShell.Script.Grammar
import ValueShell.Script.Lookup
import ValueShell.Script.Pattern
import ValueShell.Script.Process
import ValueShell.Script.Reader
import ValueShell.Script.Start
import ValueShell.Script.State
import ValueShell.Script.Syntax
import ValueShell.Script.System
import ValueShell.Script.Utility
import ValueShell.Session.Basic
import ValueShell.Session.Builtins
import ValueShell.Store
import ValueShell.Syntax.Grammar
import ValueShell.Syntax.Node
import ValueShell.Syntax.Problem
import ValueShell.Syntax.Reader
import ValueShell.Syntax.Tree
import ValueShell.Table
import ValueShell.Text.Alphanumeric
import ValueShell.Text.Blank
import ValueShell.Text.Bytes
import ValueShell.Text.CharRange
import ValueShell.Text.LineTable
import ValueShell.Text.Lines
import ValueShell.Text.Printable
import ValueShell.Text.Quoted
import ValueShell.Text.Reader
import ValueShell.Text.Slice
import ValueShell.Text.Source
import ValueShell.Text.Span
import ValueShell.Text.Split
import ValueShell.Text.Utf8
import ValueShell.Value.Basic
import ValueShell.Value.Builtin
import ValueShell.Value.Path
import ValueShell.World.Basic
import ValueShell.World.Command
import ValueShell.World.Environment
import ValueShell.World.FileTree
import ValueShell.World.Streams
