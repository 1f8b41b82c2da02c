import LintReport.Collection
import LintReport.Json.Value
import LintReport.Log.Record
import LintReport.Report
import LintReport.Settings
import LintReport.ToolFailure

/-! # Checks

One run of a linter, from its output to the diagnostics that the collection gains. A
check is refused when its output is too large or its tool is unknown, and a failure
that the tool reports is a result like any other (`Checker.check`). Each check tells
the log what came in and what came out. -/

namespace LintReport

open Json

/-! ## Labels

What a run says about itself: the name of its tool, its command and its root. A label
is a text, and on a command line it may also have been left empty, which is not the same as
the empty text: an empty label is shown as a list without items. -/

/-- A text, or nothing where a text could stand. -/
inductive Label where
  | given (text : String)
  | empty
  deriving DecidableEq, Repr

namespace Label

/-- The text of a label. -/
def text? : Label → Option String
  | .given text => some text
  | .empty => none

/-- The text of a label that says something. -/
def filled? (label : Label) : Option String :=
  label.text?.filter (· ≠ "")

/-- A label as a sentence shows it. -/
def shown : Label → String
  | .given text => text
  | .empty => "[]"

/-- A label as a JSON value. -/
def toValue : Label → Value
  | .given text => .string text
  | .empty => .array []

end Label

/-! ## Runs and their results -/

/-- What a run was about. -/
inductive CheckTarget where
  /-- One file. -/
  | file (path : String)
  /-- All files below a root, which may be missing. -/
  | workspace (root : Option Label)
  deriving DecidableEq, Repr

/-- A target as a JSON value: its path, `null` for a missing root. -/
def CheckTarget.toValue : CheckTarget → Value
  | .file path => .string path
  | .workspace root => (root.map Label.toValue).getD .null

/-- The commands that a run may have been made with. -/
def runCommands : List String := ["lint", "analyze"]

/-- The output of a run, with what is known about the run. -/
structure CheckRequest where
  tool : Label
  command : Label
  target : CheckTarget
  output : String
  deriving DecidableEq, Repr

/-- What became of a run. -/
inductive Outcome where
  | issuesFound
  | noIssues
  | unparsedOutput
  | toolError
  deriving DecidableEq, Repr

/-- The word for an outcome. -/
def Outcome.name : Outcome → String
  | .issuesFound => "issues_found"
  | .noIssues => "no_issues"
  | .unparsedOutput => "unparsed_output"
  | .toolError => "tool_error"

/-- The result of a check. -/
structure CheckResult where
  tool : Label
  command : Label
  target : CheckTarget
  outcome : Outcome
  summary : String
  diagnostics : Keyed (List Diagnostic) := []
  skippedLines : Nat := 0
  failure : Option ToolFailure := none
  deriving DecidableEq

/-- A value that may be missing, `null` when it is. -/
def optionalInt (value : Option Int) : Value :=
  (value.map Value.int).getD .null

/-- A failure as a JSON object. -/
def ToolFailure.toValue (failure : ToolFailure) : Value :=
  .object
    [("kind", .string failure.kind.name), ("line", optionalInt failure.line),
      ("column", optionalInt failure.column),
      ("error_lines", .array (failure.errorLines.map Value.string))]

namespace CheckResult

/-- The number of diagnostics. -/
def total (result : CheckResult) : Nat :=
  result.diagnostics.total

/-- A result as a JSON object. -/
def toValue (result : CheckResult) : Value :=
  .object
    [("tool", result.tool.toValue), ("command", result.command.toValue),
      ("target", result.target.toValue),
      ("outcome", .string result.outcome.name), ("summary", .string result.summary),
      ("total", .int result.total), ("files", .int result.diagnostics.length),
      ("skipped_lines", .int result.skippedLines),
      ("failure", (result.failure.map ToolFailure.toValue).getD .null),
      ("diagnostics", Diagnostic.objectOf result.diagnostics)]

/-- A result as a JSON object that shares nothing with it. -/
def copied (result : CheckResult) : Except CopyFault Value :=
  if Diagnostic.areCopyable result.diagnostics then .ok result.toValue else .error .tooDeep

theorem copied_eq_ok_iff {result : CheckResult} {value : Value} :
    result.copied = .ok value ↔
      Diagnostic.areCopyable result.diagnostics ∧ value = result.toValue := by
  by_cases copyable : Diagnostic.areCopyable result.diagnostics
  · simp [copied, copyable, eq_comm]
  · simp [copied, copyable]

end CheckResult

/-- Why a check has no result. -/
inductive CheckError where
  /-- The output has more characters than the limit allows. -/
  | outputTooLarge (length : Nat) (limit : Int)
  /-- No parser is at hand for the tool. -/
  | unknownTool (tool : Label)
  /-- The place in the configuration file that the output gives has too many digits. -/
  | unreadablePlace (problem : Numeral.TooManyDigits)
  deriving DecidableEq, Repr

/-- The sentence for an error. -/
def CheckError.message : CheckError → String
  | .outputTooLarge length limit => s!"Output is {length} chars, limit is {limit}"
  | .unknownTool tool => s!"No parser registered for tool: {tool.shown}"
  | .unreadablePlace problem => problem.message

/-- What checks are made with. -/
structure Checker where
  registry : Registry
  settings : Settings := {}
  deriving DecidableEq, Repr

/-- What a report says, whichever target it is about. -/
structure ReportSummary where
  diagnostics : Keyed (List Diagnostic)
  format : Format
  skipped : Nat
  deriving DecidableEq

/-- The report of a run. A file without diagnostics is not listed. -/
def ReportParser.report (parser : ReportParser) (output : String) : CheckTarget → ReportSummary
  | .file path =>
      let report := parser.fileReport output path
      { diagnostics := if report.diagnostics = [] then [] else [(path, report.diagnostics)]
        format := report.format
        skipped := report.skipped }
  | .workspace root =>
      let report := parser.projectReport output ((root.bind Label.text?).getD "")
      { diagnostics := report.diagnostics
        format := report.format
        skipped := report.skipped }

namespace Checker

/-- The logger of checks. -/
def logger : String := "mago_diagnostics.services.diagnostics_service"

/-- A record about a run. -/
def record (request : CheckRequest) (level : Log.Level) (template : String)
    (arguments : List Value) : Log.Record :=
  { logger
    level
    template
    arguments
    context :=
      { tool := some request.tool.toValue
        command := some request.command.toValue
        target := some request.target.toValue } }

/-- The record of an output that came in. -/
def incomingRecords (checker : Checker) (request : CheckRequest) : List Log.Record :=
  if checker.settings.logsRawOutput then
    [record request Log.Level.debug "Raw output:\n%s" [.string request.output]]
  else []

/-- The parser for a run, unless the run is refused. The size of the output is looked at
first. -/
def accept (checker : Checker) (request : CheckRequest) : Except CheckError ReportParser :=
  if checker.settings.maxOutputChars < request.output.length then
    .error (.outputTooLarge request.output.length checker.settings.maxOutputChars)
  else match request.tool.text?.bind checker.registry.parser? with
    | none => .error (.unknownTool request.tool)
    | some parser => .ok parser

/-- The result of a run in which the tool itself failed. -/
def failed (request : CheckRequest) (failure : ToolFailure) : CheckResult :=
  { tool := request.tool
    command := request.command
    target := request.target
    outcome := .toolError
    summary := failure.describe request.command.shown
    failure := some failure }

/-- The outcome of a run with so many diagnostics. An output without diagnostics has
been understood when it is blank or one JSON document. -/
def outcome (output : String) (format : Format) (total : Nat) : Outcome :=
  if 0 < total then .issuesFound
  else if Text.isBlankText output.toList || format == .json then .noIssues
  else .unparsedOutput

/-- One sentence about a run. -/
def summary (request : CheckRequest) (outcome : Outcome) (total files : Nat) : String :=
  let label := s!"Mago {request.command.shown}"
  match outcome with
  | .issuesFound =>
      let found := s!"{label}: Found {total} issue(s)"
      match request.target with
      | .file _ => found
      | .workspace _ => found ++ s!" in {files} file(s)"
  | .noIssues => s!"{label}: No issues found"
  | _ => s!"{label}: Output received but no issues parsed"

/-- The result of a run that has a report. -/
def finished (request : CheckRequest) (report : ReportSummary) : CheckResult :=
  let total := report.diagnostics.total
  let outcome := outcome request.output report.format total
  { tool := request.tool
    command := request.command
    target := request.target
    outcome
    summary := summary request outcome total report.diagnostics.length
    diagnostics := report.diagnostics
    skippedLines := report.skipped }

/-- The result of a check, without its effects. -/
def result (checker : Checker) (request : CheckRequest) : Except CheckError CheckResult :=
  match checker.accept request with
  | .error error => .error error
  | .ok parser =>
      match ToolFailure.detect? request.output with
      | .error problem => .error (.unreadablePlace problem)
      | .ok (some failure) => .ok (failed request failure)
      | .ok none => .ok (finished request (parser.report request.output request.target))

/-- The record of a result. -/
def outgoingRecord (request : CheckRequest) (result : CheckResult) : Log.Record :=
  match result.failure with
  | some failure =>
      record request Log.Level.warning "%s (%d error line(s))"
        [.string result.summary, .int failure.errorLines.length]
  | none =>
      record request Log.Level.info "%s (%d line(s) skipped)"
        [.string result.summary, .int result.skippedLines]

/-- What a check does: its answer, the collection after it, and what it tells the
log. -/
structure Step where
  answer : Except CheckError CheckResult
  collection : Collection
  records : List Log.Record

/-- Makes a check. The collection gains the diagnostics of its result; without a result
it stays as it is. -/
def check (checker : Checker) (collection : Collection) (request : CheckRequest) : Step :=
  let incoming := checker.incomingRecords request
  match checker.result request with
  | .error error => { answer := .error error, collection, records := incoming }
  | .ok result =>
      { answer := .ok result
        collection := collection.mergeAll result.diagnostics
        records := incoming ++ [outgoingRecord request result] }

end Checker

end LintReport
