import ExportCover.Exports
import ExportCover.Json.Basic
import ExportCover.Report.Message

/-!
# Diagnostics

What the check reports: an error for a function that no test file imports, a warning for an export
that it cannot verify. Diagnostics are ordered by file, line, column and name; equal ones keep their
order.
-/

namespace ExportCover

/-- How bad a diagnostic is. -/
inductive Severity where
  | error
  | warning
deriving DecidableEq, Repr

namespace Severity

/-- The name of a severity in reports. -/
def name : Severity → String
  | .error => "error"
  | .warning => "warning"

/-- The severity with a name. -/
def ofName (text : String) : Except Fault Severity :=
  match [error, warning].find? (·.name == text) with
  | some severity => .ok severity
  | none => .error (.notMember "Severity" text)

end Severity

/-- A line of a report. -/
structure Diagnostic where
  ruleId : String
  severity : Severity
  message : String
  file : String
  line : Nat
  column : Nat
  name : String
  kind : String
deriving DecidableEq, Repr

namespace Diagnostic

/-- A function that no test file imports. -/
def missingTest (function : ExportedFunction) (file locale : String) : Diagnostic :=
  ⟨Message.ruleId, .error, Message.missingTest locale, file, function.line, function.column,
    function.name, function.kind.name⟩

/-- An export that the check cannot verify. -/
def unchecked (exported : UncheckedExport) (file locale : String) : Diagnostic :=
  ⟨Message.uncheckedRuleId, .warning, Message.uncheckedExport locale, file, exported.line,
    exported.column, exported.label, exported.reason⟩

/-- The diagnostic is an error. -/
def isError (diagnostic : Diagnostic) : Bool :=
  diagnostic.severity == .error

/-- The order of two diagnostics by file, line, column and name. -/
def order (a b : Diagnostic) : Ordering :=
  (compare a.file b.file).then <| (compare a.line b.line).then <|
    (compare a.column b.column).then (compare a.name b.name)

/-- Diagnostics in the order of reports. -/
def sort (diagnostics : List Diagnostic) : List Diagnostic :=
  diagnostics.mergeSort fun a b => (order a b).isLE

/-- A diagnostic as a value, with its fields in the order of reports. -/
def toJson (diagnostic : Diagnostic) : Json :=
  .object [("rule_id", .string diagnostic.ruleId),
    ("severity", .string diagnostic.severity.name),
    ("message", .string diagnostic.message),
    ("file", .string diagnostic.file),
    ("line", .int diagnostic.line),
    ("column", .int diagnostic.column),
    ("name", .string diagnostic.name),
    ("kind", .string diagnostic.kind)]

/-- Where a diagnostic points: file, line and column. -/
def location (diagnostic : Diagnostic) : String :=
  diagnostic.file ++ ":" ++ toString diagnostic.line ++ ":" ++ toString diagnostic.column

/-- The whole report as a value. -/
def report (diagnostics : List Diagnostic) : Json :=
  .object [("rule", .object (Message.ruleInfo.map fun (key, text) => (key, .string text))),
    ("count", .int diagnostics.length),
    ("diagnostics", .array (diagnostics.map toJson))]

end Diagnostic

end ExportCover
