import LintReport.Proofs.Check.Result
import LintReport.Proofs.Json.Respacing
import LintReport.Proofs.Report.Document
import LintReport.Proofs.ToolFailure.Returns

/-! # Checks and the ends of lines

An output may end its lines with a carriage return and a newline or with the newline alone.
It holds the same document either way (`Json.parse_returned_eq_ok_iff`), its lines are read
alike because they are trimmed first, and so the check comes to the same result but for
returns in the error lines of a failure (`Checker.check_withReturns`). -/

namespace LintReport

open Json Text

/-- With returns before its newlines an output is the text of the same value. -/
theorem Json.parse_returned_eq_ok_iff {output : String} {value : Value} :
    parse (trim (returned output).toList) = .ok value ↔
      parse (trim output.toList) = .ok value := by
  rw [toList_returned, parse_trim_eq_ok_iff, parse_trim_eq_ok_iff, trim_withReturns,
    denotes_withReturns_iff]

/-- Returns neither make nor break a document. -/
theorem isDocument_returned_iff {output : String} :
    IsDocument (returned output) ↔ IsDocument output := by
  simp only [IsDocument, ← parse_trim_eq_ok_iff, parse_returned_eq_ok_iff]

/-! ## Reports -/

namespace Findings

/-- Lines are trimmed before they are read, so their returns go. -/
theorem ofLines_withReturns (placement : Placement) (text : List Char) :
    ofLines placement (withReturns text) = ofLines placement text := by
  have alike : ∀ line other, Text.IsReturned line other →
      LineReading.ofLine placement line = LineReading.ofLine placement other := by
    intro line other same
    rw [LineReading.ofLine, LineReading.ofLine, same.trim_eq]
  have readings : (lines text).map (LineReading.ofLine placement) =
      (lines (withReturns text)).map (LineReading.ofLine placement) := by
    rw [← List.forall₂_eq_eq_eq, List.forall₂_map_left_iff, List.forall₂_map_right_iff]
    exact (lines_withReturns text).imp alike
  rw [ofLines, ofLines, readings]

/-- An output reports the same with returns. -/
theorem ofOutput_returned (placement : Placement) (output : String) :
    ofOutput placement (returned output) = ofOutput placement output := by
  by_cases held : IsDocument output
  · obtain ⟨value, denotes⟩ := held
    have read := parse_trim_eq_ok_iff.mpr denotes
    simp only [ofOutput, Document.read, read, parse_returned_eq_ok_iff.mpr read]
  · have linewise := mt isDocument_returned_iff.mp held
    rw [ofOutput_of_not_isDocument held, ofOutput_of_not_isDocument linewise, toList_returned,
      ofLines_withReturns]

end Findings

namespace ReportParser

/-- A run on a file has the same report with returns. -/
theorem fileReport_returned (parser : ReportParser) (output file : String) :
    parser.fileReport (returned output) file = parser.fileReport output file := by
  rw [fileReport, fileReport, Findings.ofOutput_returned]

/-- A run on a project has the same report with returns. -/
theorem projectReport_returned (parser : ReportParser) (output root : String) :
    parser.projectReport (returned output) root = parser.projectReport output root := by
  rw [projectReport, projectReport, Findings.ofOutput_returned]

/-- A run has the same report with returns, whatever its target. -/
theorem report_returned (parser : ReportParser) (output : String) (target : CheckTarget) :
    parser.report (returned output) target = parser.report output target := by
  cases target with
  | file path => rw [report, fileReport_returned, report]
  | workspace root => rw [report, projectReport_returned, report]

end ReportParser

/-! ## Checks -/

/-- The same run, its output with a carriage return before every newline. -/
def CheckRequest.withReturns (request : CheckRequest) : CheckRequest :=
  { request with output := returned request.output }

/-- Whether a result is another one but for returns in the error lines of a failure. -/
structure CheckResult.IsReturned (result other : CheckResult) : Prop where
  failure : Option.Rel ToolFailure.IsReturned result.failure other.failure
  same : other = { result with failure := other.failure }

namespace Checker

variable {checker : Checker} {request : CheckRequest}

/-- Returns only make an output longer. -/
theorem Fits.of_withReturns (fits : checker.Fits request.withReturns) : checker.Fits request := by
  have longer := length_le_withReturns request.output.toList
  have length : (returned request.output).length = (withReturns request.output.toList).length := by
    rw [← String.length_toList, toList_returned]
  rw [Fits, CheckRequest.withReturns, length] at fits
  rw [Fits, ← String.length_toList]
  omega

/-- Returns change nothing about which parser a request is accepted for. -/
theorem accept_withReturns (fits : checker.Fits request.withReturns) :
    checker.accept request.withReturns = checker.accept request := by
  rw [accept_of_fits fits, accept_of_fits fits.of_withReturns]
  rfl

theorem finished_withReturns (request : CheckRequest) (report : ReportSummary) :
    finished request.withReturns report = finished request report := by
  have blank : isBlankText (returned request.output).toList =
      isBlankText request.output.toList := by
    rw [toList_returned, isBlankText_withReturns]
  simp only [finished, CheckRequest.withReturns, outcome, blank]
  rfl

/-- Failures that are alike up to returns make results that are. -/
theorem isReturned_failed {failure other : ToolFailure} (alike : failure.IsReturned other) :
    (failed request failure).IsReturned (failed request.withReturns other) where
  failure := .some alike
  same := by
    simp only [failed, CheckRequest.withReturns, alike.describe_eq]

/-- A finished result has no error lines that could differ. -/
theorem isReturned_finished (report : ReportSummary) :
    (finished request report).IsReturned (finished request.withReturns report) := by
  rw [finished_withReturns]
  exact ⟨.none, rfl⟩

/-- With returns a request has the same error or a result alike up to returns. -/
theorem result_withReturns (fits : checker.Fits request.withReturns) :
    AnswersAlike CheckResult.IsReturned (checker.result request)
      (checker.result request.withReturns) := by
  have entry := accept_withReturns fits
  cases accepted : checker.accept request with
  | error error =>
      rw [accepted] at entry
      rw [result_of_accept_error accepted, result_of_accept_error entry]
      exact .error error
  | ok parser =>
      rw [accepted] at entry
      rw [result_of_accept_ok accepted, result_of_accept_ok entry]
      have detected := ToolFailure.detect?_withReturns request.output
      have report : parser.report request.withReturns.output request.withReturns.target =
          parser.report request.output request.target :=
        parser.report_returned request.output request.target
      have output : request.withReturns.output = returned request.output := rfl
      rw [report, output]
      generalize ToolFailure.detect? request.output = first at detected ⊢
      generalize ToolFailure.detect? (returned request.output) = second at detected ⊢
      cases detected with
      | error problem => exact .error _
      | ok related =>
          cases related with
          | none => exact .ok (isReturned_finished _)
          | some alike => exact .ok (isReturned_failed alike)

/-- With returns a request merges the same diagnostics. -/
theorem merges_withReturns (fits : checker.Fits request.withReturns) :
    checker.merges request.withReturns = checker.merges request := by
  have alike := result_withReturns fits
  unfold merges
  generalize checker.result request = first at alike
  generalize checker.result request.withReturns = second at alike
  cases alike with
  | error error => rfl
  | ok returned => rw [returned.same]

/-- **Line ends do not change a check.** When every newline of an output gets a carriage return
and the output stays within the limit, the check fails for the same reason or has the same
result, but that an error line of a failure may end with the return. The collection gains the
same, and the output is the text of a value exactly if it was the text of that value before. -/
theorem check_withReturns (checker : Checker) (collection : Collection) (request : CheckRequest)
    (fits : checker.Fits request.withReturns) :
    AnswersAlike CheckResult.IsReturned (checker.check collection request).answer
      (checker.check collection request.withReturns).answer ∧
    (checker.check collection request.withReturns).collection =
      (checker.check collection request).collection ∧
    ∀ value, parse (trim request.withReturns.output.toList) = .ok value ↔
      parse (trim request.output.toList) = .ok value := by
  refine ⟨?_, ?_, fun value => parse_returned_eq_ok_iff⟩
  · rw [answer_check, answer_check]
    exact result_withReturns fits
  · rw [collection_check, collection_check, merges_withReturns fits]

/-- Of two error lines the first one shows its return. -/
theorem check_withReturns_failed :
    ∃ result other,
      (({ registry := ⟨[{}]⟩ } : Checker).check .empty (.ofLint "ERROR a\nERROR b")).answer =
        .ok result ∧
      (({ registry := ⟨[{}]⟩ } : Checker).check .empty
        (CheckRequest.ofLint "ERROR a\nERROR b").withReturns).answer = .ok other ∧
      result.failure = some { kind := .execution, errorLines := ["ERROR a", "ERROR b"] } ∧
      other = { result with
        failure := some { kind := .execution, errorLines := ["ERROR a\r", "ERROR b"] } } := by
  obtain ⟨alike, _⟩ := check_withReturns { registry := ⟨[{}]⟩ } .empty (.ofLint "ERROR a\nERROR b")
    (by decide)
  have first : (({ registry := ⟨[{}]⟩ } : Checker).check .empty
      (.ofLint "ERROR a\nERROR b")).answer = .ok (failed (.ofLint "ERROR a\nERROR b")
        { kind := .execution, errorLines := ["ERROR a", "ERROR b"] }) := by
    decide
  have second : (({ registry := ⟨[{}]⟩ } : Checker).check .empty
      (CheckRequest.ofLint "ERROR a\nERROR b").withReturns).answer =
        .ok (failed (CheckRequest.ofLint "ERROR a\nERROR b").withReturns
          { kind := .execution, errorLines := ["ERROR a\r", "ERROR b"] }) := by
    decide
  rw [first, second] at alike
  cases alike with
  | ok same => exact ⟨_, _, first, second, rfl, same.same⟩

end Checker

end LintReport
