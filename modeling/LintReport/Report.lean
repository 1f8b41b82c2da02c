import LintReport.Diagnostic
import LintReport.Issue.FromValue
import LintReport.Issue.TextLine
import LintReport.Json.Reader
import LintReport.Text.Basic

/-! # Reports

What the output of one run of a linter says. An output that is one JSON document is
read issue by issue; any other is read line by line, and each line falls into one of
four cases (`LineReading`). The diagnostics of a single file stay in one list, those
of a workspace are grouped by file. The parsers that are at hand are found by the name of their
tool (`Registry`). -/

namespace LintReport

open Json

/-! ## Documents

The JSON that a linter prints in one piece: an array of issues, an object that wraps
such an array, or one issue by itself. A single line of output may also hold one issue as an
object (`lineObject?`). -/

/-- A report in one JSON document, by its shape. -/
inductive Document where
  /-- An array of issues. -/
  | issues (items : List Value)
  /-- An object with an array of issues under `issues`. -/
  | wrapped (items : List Value)
  /-- Any other value, which is taken for one issue. -/
  | single (item : Value)
  deriving DecidableEq

namespace Document

/-- The shape of a value. -/
def ofValue (value : Value) : Document :=
  match value with
  | .array items => .issues items
  | value =>
      match (value.get? "issues").bind Value.items? with
      | some items => .wrapped items
      | none => .single value

/-- The issues of a document, not yet looked at. -/
def items : Document → List Value
  | .issues items => items
  | .wrapped items => items
  | .single item => [item]

/-- Reads an output that is one document with blanks around it. The places of faults
are places of the output without these blanks. -/
def read (output : List Char) : Except Fault Document :=
  match Json.parse (Text.trim output) with
  | .ok value => .ok (ofValue value)
  | .error fault => .error fault

/-- The sentence for the fault of an output. -/
def faultMessage (output : List Char) (fault : Fault) : String :=
  fault.message (Text.trim output)

end Document

/-- The object that a line of output holds, if it holds one and nothing else. -/
def lineObject? (line : List Char) : Option Value :=
  if line.head? = some '{' then
    match Json.parse line with
    | .ok value => if value.isObject then some value else none
    | .error _ => none
  else none

/-! ## Outputs -/

/-- How an output was read. -/
inductive Format where
  /-- As one JSON document. -/
  | json
  /-- Line by line. -/
  | lines
  deriving DecidableEq, Repr

/-- The word for a format. -/
def Format.name : Format → String
  | .json => "json"
  | .lines => "lines"

/-- What one line of an output is. -/
inductive LineReading where
  | blank
  /-- A line that reports an issue. -/
  | found (issue : Issue)
  /-- A JSON object that reports no issue. -/
  | dropped
  /-- Any other line. -/
  | skipped
  deriving DecidableEq

namespace LineReading

/-- Reads one line. -/
def ofLine (placement : Placement) (line : List Char) : LineReading :=
  let line := Text.trim line
  if line = [] then .blank
  else match lineObject? line with
    | some raw =>
        match Issue.ofValue? placement raw with
        | some issue => .found issue
        | none => .dropped
    | none =>
        match TextLine.ofText? line with
        | some parts => .found (parts.toIssue placement)
        | none => .skipped

/-- The issue that a line reports. -/
def issue? : LineReading → Option Issue
  | .found issue => some issue
  | _ => none

end LineReading

/-- The issues of an output, with the number of lines that say nothing. -/
structure Findings where
  issues : List Issue
  format : Format
  skipped : Nat
  deriving DecidableEq

namespace Findings

/-- The issues of a document. -/
def ofDocument (placement : Placement) (document : Document) : Findings :=
  { issues := document.items.filterMap (Issue.ofValue? placement)
    format := .json
    skipped := 0 }

/-- The issues of the lines of an output. -/
def ofLines (placement : Placement) (output : List Char) : Findings :=
  let readings := (Text.lines output).map (LineReading.ofLine placement)
  { issues := readings.filterMap LineReading.issue?
    format := .lines
    skipped := readings.count .skipped }

/-- The issues of an output. -/
def ofOutput (placement : Placement) (output : String) : Findings :=
  match Document.read output.toList with
  | .ok document => ofDocument placement document
  | .error _ => ofLines placement output.toList

/-- The diagnostics that show the issues. -/
def diagnostics (findings : Findings) (source : String) : List Diagnostic :=
  findings.issues.map fun issue => Diagnostic.ofIssue issue source

end Findings

/-- The diagnostics of a run on one file. -/
structure FileReport where
  diagnostics : List Diagnostic
  format : Format
  skipped : Nat
  deriving DecidableEq

/-- The diagnostics of a run on a workspace, by file. -/
structure ProjectReport where
  diagnostics : Keyed (List Diagnostic)
  format : Format
  skipped : Nat
  deriving DecidableEq

/-- The number of diagnostics of a project report. -/
def ProjectReport.total (report : ProjectReport) : Nat :=
  report.diagnostics.total

/-- A reader of the output of one tool, with the source that it tags diagnostics with. -/
structure ReportParser where
  tool : String := "mago"
  source : String := "mago"
  deriving DecidableEq, Repr

namespace ReportParser

/-- The report of a run on a file, to which all diagnostics belong. -/
def fileReport (parser : ReportParser) (output file : String) : FileReport :=
  let findings := Findings.ofOutput (.pinned file) output
  { diagnostics := findings.diagnostics parser.source
    format := findings.format
    skipped := findings.skipped }

/-- The report of a run on the workspace below a root. -/
def projectReport (parser : ReportParser) (output root : String) : ProjectReport :=
  let findings := Findings.ofOutput (.under root) output
  { diagnostics := Keyed.group Diagnostic.file (findings.diagnostics parser.source)
    format := findings.format
    skipped := findings.skipped }

end ReportParser

/-! ## Registries -/

/-- The parsers that are at hand; of two for one tool the first counts. -/
structure Registry where
  parsers : List ReportParser
  deriving DecidableEq, Repr

namespace Registry

/-- The names of the tools in alphabetical order. -/
def tools (registry : Registry) : List String :=
  (registry.parsers.map ReportParser.tool).mergeSort fun left right => left ≤ right

/-- The parser for a tool. -/
def parser? (registry : Registry) (tool : String) : Option ReportParser :=
  registry.parsers.find? fun parser => parser.tool = tool

theorem mem_tools {registry : Registry} {tool : String} :
    tool ∈ registry.tools ↔ ∃ parser ∈ registry.parsers, parser.tool = tool := by
  simp [tools]

/-- A tool is listed exactly if it has a parser. -/
theorem isSome_parser?_iff {registry : Registry} {tool : String} :
    (registry.parser? tool).isSome ↔ tool ∈ registry.tools := by
  simp [parser?, mem_tools]

end Registry

end LintReport
