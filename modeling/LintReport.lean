import LintReport.Api.Server
import LintReport.Api.Standard
import LintReport.Json.Printer
import LintReport.Main
import LintReport.Proofs.Json.Literal
import LintReport.Proofs.Keyed.Grouped
import LintReport.Proofs.Text.Trimmed
import LintReport.Proofs.Json.Grammar
import LintReport.Proofs.Json.Reading
import LintReport.Proofs.Json.RoundTrip
import LintReport.Proofs.Report.Origin
import LintReport.Proofs.Report.Soundness
import LintReport.Proofs.Report.Attempt
import LintReport.Proofs.Text.Pieces
import LintReport.Proofs.Json.Embedding
import LintReport.Proofs.Report.Shapes
import LintReport.Proofs.Issue.Written
import LintReport.Proofs.Json.Bare
import LintReport.Proofs.Report.Forms
import LintReport.Proofs.Json.Escapes
import LintReport.Proofs.Json.Printed
import LintReport.Proofs.ToolFailure.Detection
import LintReport.Proofs.Check.Result
import LintReport.Proofs.Check.Refusal
import LintReport.Proofs.Collection.Filing
import LintReport.Proofs.Check.Course
import LintReport.Proofs.Check.Marked
import LintReport.Proofs.Json.Value
import LintReport.Proofs.Api.Framework
import LintReport.Proofs.Api.Requests
import LintReport.Proofs.Api.Answers
import LintReport.Proofs.Text.Returns
import LintReport.Proofs.Json.Respacing
import LintReport.Proofs.Report.Document
import LintReport.Proofs.Report.Lines
import LintReport.Proofs.ToolFailure.Returns
import LintReport.Proofs.Check.Returns
import LintReport.Proofs.Check.Classified
import LintReport.Proofs.Check.Concurrent
import LintReport.Proofs.CommandLine.Arguments
import LintReport.Proofs.CommandLine.Modes
import LintReport.Proofs.Number.Nearest
import LintReport.Proofs.Number.Shortest
import LintReport.Proofs.Json.Floats
import LintReport.Proofs.Json.Parts
import LintReport.Proofs.Issue.Places
import LintReport.Proofs.Check.Writable
import LintReport.Proofs.Json.Ascii
import LintReport.Proofs.CommandLine.Printed
import LintReport.Proofs.Collection.Edits
import LintReport.Proofs.Issue.Grammar
import LintReport.Proofs.SourcePath.Components
import LintReport.Proofs.SourcePath.Resolve
import LintReport.Proofs.Log.Record
import LintReport.Proofs.SourcePath.Drive
import LintReport.Proofs.Issue.Severity
import LintReport.Proofs.Issue.Positions
import LintReport.Proofs.Issue.Kept
import LintReport.Proofs.Issue.Deciding
import LintReport.Proofs.ToolFailure.Telling
import LintReport.Proofs.Check.Codes
import LintReport.Proofs.Check.Nested
import LintReport.Proofs.Text.Utf8
import LintReport.Proofs.Text.LineEnds
import LintReport.Proofs.CommandLine.Channels
import LintReport.Proofs.Log.Ancestors
import LintReport.Proofs.Log.Levels
