import ExportCover.Command.Arguments
import ExportCover.Command.Basic
import ExportCover.Command.Invocation
import ExportCover.Config.Change
import ExportCover.Config.Edit
import ExportCover.Config.Listing
import ExportCover.Config.Schema
import ExportCover.Config.Store
import ExportCover.Discovery
import ExportCover.Exports
import ExportCover.Fault
import ExportCover.FileTree.Attempt
import ExportCover.FileTree.Basic
import ExportCover.FileTree.Edit
import ExportCover.FileTree.Resolve
import ExportCover.Imports
import ExportCover.Json.Basic
import ExportCover.Json.Printer
import ExportCover.Json.Reader
import ExportCover.Main
import ExportCover.Notice
import ExportCover.ParseCache
import ExportCover.Path.Basic
import ExportCover.Path.Glob
import ExportCover.Path.Specifier
import ExportCover.Proofs.Command.Arguments
import ExportCover.Proofs.Command.Exit
import ExportCover.Proofs.Command.Persistence
import ExportCover.Proofs.Command.Presentation
import ExportCover.Proofs.Command.Refinement
import ExportCover.Proofs.Command.Repetition
import ExportCover.Proofs.Command.Selection
import ExportCover.Proofs.Config.Atomicity
import ExportCover.Proofs.Config.ClosedForm
import ExportCover.Proofs.Config.Stored
import ExportCover.Proofs.Config.Table
import ExportCover.Proofs.Config.Typed
import ExportCover.Proofs.Discovery.Growth
import ExportCover.Proofs.Discovery.Levels
import ExportCover.Proofs.Discovery.Pruning
import ExportCover.Proofs.Discovery.Reach
import ExportCover.Proofs.Discovery.Unlinked
import ExportCover.Proofs.Discovery.Walk
import ExportCover.Proofs.Exports.Binding
import ExportCover.Proofs.Exports.Conservation
import ExportCover.Proofs.Exports.Counting
import ExportCover.Proofs.Exports.Declarations
import ExportCover.Proofs.Exports.Failure
import ExportCover.Proofs.Exports.Lowering
import ExportCover.Proofs.Exports.Marker
import ExportCover.Proofs.Exports.Occurrence
import ExportCover.Proofs.Exports.Order
import ExportCover.Proofs.Exports.Position
import ExportCover.Proofs.Exports.Relisting
import ExportCover.Proofs.Exports.Silencing
import ExportCover.Proofs.Exports.Statements
import ExportCover.Proofs.Exports.WellFormed
import ExportCover.Proofs.FileTree.Atomicity
import ExportCover.Proofs.FileTree.Attempt
import ExportCover.Proofs.FileTree.Canonical
import ExportCover.Proofs.FileTree.Following
import ExportCover.Proofs.FileTree.Growth
import ExportCover.Proofs.FileTree.Normal
import ExportCover.Proofs.FileTree.Readback
import ExportCover.Proofs.FileTree.Replace
import ExportCover.Proofs.FileTree.Settled
import ExportCover.Proofs.Imports.Fragments
import ExportCover.Proofs.Json.Distinct
import ExportCover.Proofs.Json.Layout
import ExportCover.Proofs.Json.RoundTrip
import ExportCover.Proofs.Json.Tokens
import ExportCover.Proofs.Outcome
import ExportCover.Proofs.ParseCache
import ExportCover.Proofs.Path.Comparison
import ExportCover.Proofs.Path.Denotation
import ExportCover.Proofs.Path.Equivalence
import ExportCover.Proofs.Path.Extensions
import ExportCover.Proofs.Path.Glob
import ExportCover.Proofs.Path.Names
import ExportCover.Proofs.Path.Relative
import ExportCover.Proofs.Path.Spelling
import ExportCover.Proofs.Report.Sorting
import ExportCover.Proofs.Run.Acceptance
import ExportCover.Proofs.Run.Agreement
import ExportCover.Proofs.Run.Diagnosis
import ExportCover.Proofs.Run.Exclusion
import ExportCover.Proofs.Run.Failure
import ExportCover.Proofs.Run.Faults
import ExportCover.Proofs.Run.Filtering
import ExportCover.Proofs.Run.Gate
import ExportCover.Proofs.Run.Growth
import ExportCover.Proofs.Run.History
import ExportCover.Proofs.Run.Ignoring
import ExportCover.Proofs.Run.Memo
import ExportCover.Proofs.Run.Presentation
import ExportCover.Proofs.Run.Reading
import ExportCover.Proofs.Run.Recall
import ExportCover.Proofs.Run.Search
import ExportCover.Proofs.Run.Settings
import ExportCover.Proofs.Run.Shown
import ExportCover.Proofs.Run.Snapshot
import ExportCover.Proofs.Run.Soundness
import ExportCover.Proofs.Run.Strictness
import ExportCover.Proofs.Run.Uncovered
import ExportCover.Proofs.Run.Work
import ExportCover.Proofs.Source.Exportable
import ExportCover.Proofs.Text.Utf8
import ExportCover.Report.Diagnostic
import ExportCover.Report.Message
import ExportCover.Report.Terminal
import ExportCover.Run.Basic
import ExportCover.Run.Check
import ExportCover.Run.Coverage
import ExportCover.Run.Operation
import ExportCover.Source.Callable
import ExportCover.Source.Cursor
import ExportCover.Source.Expression
import ExportCover.Source.Grammar
import ExportCover.Source.Linkage
import ExportCover.Source.Markup
import ExportCover.Source.Pattern
import ExportCover.Source.Program
import ExportCover.Source.Rule
import ExportCover.Source.Statement
import ExportCover.Source.Token
import ExportCover.Source.Types
import ExportCover.Text.Basic
import ExportCover.Text.Printable
import ExportCover.Text.Quoted
import ExportCover.Text.Utf8
import ExportCover.Tree.Node
