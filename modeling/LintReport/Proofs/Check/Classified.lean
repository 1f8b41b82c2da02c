import LintReport.CommandLine.Run
import LintReport.Proofs.Check.Marked
import LintReport.Proofs.Report.Document

/-! # Classified results

Which outcome a check has is decided by three facts about its output: whether the mark of
failures is in it, whether the parser yields a diagnostic, and whether the output is blank or
a document. Each outcome has its exact condition, and the numbers that a result shows are
those of its diagnostics (`Checker.check_classified`). -/

namespace LintReport

open Json Text ToolFailure

namespace ReportParser

variable {parser : ReportParser} {output : String} {target : CheckTarget}

/-- The diagnostics that a parser yields for a target. -/
def yielded (parser : ReportParser) (output : String) : CheckTarget → List Diagnostic
  | .file path => (parser.fileReport output path).diagnostics
  | .workspace root =>
      (parser.projectReport output ((root.bind Label.text?).getD "")).diagnostics.flatMap Prod.snd

/-- The diagnostics of a report are those that its findings yield, in order of their files. -/
theorem flatMap_report :
    (parser.report output target).diagnostics.flatMap Prod.snd = parser.yielded output target := by
  cases target with
  | workspace root => rfl
  | file path =>
      by_cases none : (parser.fileReport output path).diagnostics = []
      · simp only [report, yielded, none, if_true, List.flatMap_nil]
      · simp only [report, yielded, none, if_false, List.flatMap_singleton]

/-- A report is empty exactly if nothing is yielded. -/
theorem total_report_eq_zero_iff :
    (parser.report output target).diagnostics.total = 0 ↔ parser.yielded output target = [] := by
  rw [Keyed.total_eq_length_flatMap, flatMap_report, List.length_eq_zero_iff]

/-- A report is of JSON exactly if the output is a document. -/
theorem format_report_eq_json_iff :
    (parser.report output target).format = .json ↔ IsDocument output := by
  cases target <;> exact Findings.format_eq_json_iff

/-- A document has no lines to skip. -/
theorem skipped_report_of_isDocument (held : IsDocument output) :
    (parser.report output target).skipped = 0 := by
  cases target <;> exact (Findings.ofOutput_of_isDocument held).2

theorem nodup_keys_report : (parser.report output target).diagnostics.keys.Nodup :=
  (wellFiled_report (List.mem_singleton_self parser.source) output target).distinct

end ReportParser

/-- Whether a result is classified by what its output says and by what a parser yields. -/
structure CheckResult.IsClassified (parser : ReportParser) (request : CheckRequest)
    (result : CheckResult) : Prop where
  toolError : result.outcome = .toolError ↔ errorMark <:+: request.output.toList
  issuesFound : result.outcome = .issuesFound ↔
    ¬ errorMark <:+: request.output.toList ∧
      parser.yielded request.output request.target ≠ []
  noIssues : result.outcome = .noIssues ↔
    ¬ errorMark <:+: request.output.toList ∧
      parser.yielded request.output request.target = [] ∧
        (isBlankText request.output.toList ∨ IsDocument request.output)
  unparsedOutput : result.outcome = .unparsedOutput ↔
    ¬ errorMark <:+: request.output.toList ∧
      parser.yielded request.output request.target = [] ∧
        ¬ isBlankText request.output.toList ∧ ¬ IsDocument request.output
  failure : result.failure.isSome ↔ errorMark <:+: request.output.toList
  /-- A failure shows no diagnostics. -/
  failed : errorMark <:+: request.output.toList →
    result.diagnostics = [] ∧ result.total = 0 ∧ result.skippedLines = 0
  /-- Otherwise all diagnostics are shown that the parser yields. -/
  shown : ¬ errorMark <:+: request.output.toList →
    result.diagnostics.flatMap Prod.snd = parser.yielded request.output request.target
  total : result.total = (result.diagnostics.flatMap Prod.snd).length
  distinct : result.diagnostics.keys.Nodup
  printed : result.toValue.get? "total" = some (.int result.total) ∧
    result.toValue.get? "files" = some (.int result.diagnostics.keys.length) ∧
    result.toValue.get? "skipped_lines" = some (.int result.skippedLines)
  summary : result.outcome = .issuesFound → result.summary =
    s!"Mago {request.command.shown}: Found {result.total} issue(s)" ++
      match request.target with
      | .file _ => ""
      | .workspace _ => s!" in {result.diagnostics.keys.length} file(s)"
  skipped : 0 < result.skippedLines → ¬ IsDocument request.output
  exitStatus : CommandLine.exitStatus result.outcome = 0 ↔
    result.outcome = .issuesFound ∨ result.outcome = .noIssues

/-- The program ends well exactly if the tool ran to its end. -/
theorem CommandLine.exitStatus_eq_zero_iff {outcome : Outcome} :
    exitStatus outcome = 0 ↔ outcome = .issuesFound ∨ outcome = .noIssues := by
  cases outcome <;> decide

/-- The counts of a result are printed under their names. -/
theorem CheckResult.printed_toValue (result : CheckResult) :
    result.toValue.get? "total" = some (.int result.total) ∧
    result.toValue.get? "files" = some (.int result.diagnostics.keys.length) ∧
    result.toValue.get? "skipped_lines" = some (.int result.skippedLines) := by
  rw [Keyed.keys, List.length_map]
  exact ⟨rfl, rfl, rfl⟩

namespace Checker

variable {checker : Checker} {request : CheckRequest} {parser : ReportParser}

/-- Without a failure there are three cases, each with an outcome of its own. -/
theorem outcome_finished (parser : ReportParser) (request : CheckRequest) :
    (parser.yielded request.output request.target ≠ [] ∧
      (finished request (parser.report request.output request.target)).outcome = .issuesFound) ∨
    (parser.yielded request.output request.target = [] ∧
      (isBlankText request.output.toList ∨ IsDocument request.output) ∧
      (finished request (parser.report request.output request.target)).outcome = .noIssues) ∨
    (parser.yielded request.output request.target = [] ∧
      ¬ (isBlankText request.output.toList ∨ IsDocument request.output) ∧
      (finished request (parser.report request.output request.target)).outcome =
        .unparsedOutput) := by
  have format : (parser.report request.output request.target).format = .json ↔
      IsDocument request.output := ReportParser.format_report_eq_json_iff
  simp only [ne_eq, ← format, ← ReportParser.total_report_eq_zero_iff, finished, outcome]
  by_cases found : 0 < (parser.report request.output request.target).diagnostics.total
  · exact .inl ⟨Nat.ne_of_gt found, if_pos found⟩
  · have none := Nat.eq_zero_of_not_pos found
    rw [if_neg found]
    by_cases understood : isBlankText request.output.toList ∨
        (parser.report request.output request.target).format = .json
    · exact .inr (.inl ⟨none, understood, if_pos (by simpa using understood)⟩)
    · exact .inr (.inr ⟨none, understood, if_neg (by simpa using understood)⟩)

/-- The sentence about issues tells their number, and that of the files in a workspace. -/
theorem summary_finished {report : ReportSummary}
    (found : (finished request report).outcome = .issuesFound) :
    (finished request report).summary =
      s!"Mago {request.command.shown}: Found {(finished request report).total} issue(s)" ++
        match request.target with
        | .file _ => ""
        | .workspace _ => s!" in {report.diagnostics.keys.length} file(s)" := by
  have sentence : (finished request report).summary =
      summary request (finished request report).outcome (finished request report).total
        report.diagnostics.length := rfl
  rw [sentence, found, summary, Keyed.keys, List.length_map]
  cases request.target with
  | file path =>
      rw [String.append_empty]
      rfl
  | workspace root => rfl

/-- An output with an error mark is classified as a failure. -/
theorem isClassified_failed (marked : errorMark <:+: request.output.toList)
    (failure : ToolFailure) : (failed request failure).IsClassified parser request where
  toolError := iff_of_true rfl marked
  issuesFound := iff_of_false Outcome.noConfusion fun unmarked => unmarked.1 marked
  noIssues := iff_of_false Outcome.noConfusion fun unmarked => unmarked.1 marked
  unparsedOutput := iff_of_false Outcome.noConfusion fun unmarked => unmarked.1 marked
  failure := iff_of_true rfl marked
  failed _ := ⟨rfl, rfl, rfl⟩
  shown unmarked := absurd marked unmarked
  total := rfl
  distinct := List.nodup_nil
  printed := (failed request failure).printed_toValue
  summary found := Outcome.noConfusion found
  skipped some := absurd some (Nat.lt_irrefl 0)
  exitStatus := CommandLine.exitStatus_eq_zero_iff

/-- An output without one is classified by its report. -/
theorem isClassified_finished (unmarked : ¬ errorMark <:+: request.output.toList) :
    (finished request (parser.report request.output request.target)).IsClassified parser
      request := by
  have decided := outcome_finished parser request
  constructor
  case toolError =>
    rcases decided with ⟨_, told⟩ | ⟨_, _, told⟩ | ⟨_, _, told⟩ <;> simp [told, unmarked]
  case issuesFound =>
    rcases decided with ⟨some, told⟩ | ⟨none, _, told⟩ | ⟨none, _, told⟩
    · exact iff_of_true told ⟨unmarked, some⟩
    · exact iff_of_false (by simp [told]) fun found => found.2 none
    · exact iff_of_false (by simp [told]) fun found => found.2 none
  case noIssues =>
    rcases decided with ⟨some, told⟩ | ⟨none, understood, told⟩ | ⟨_, unclear, told⟩
    · exact iff_of_false (by simp [told]) fun fine => some fine.2.1
    · exact iff_of_true told ⟨unmarked, none, understood⟩
    · exact iff_of_false (by simp [told]) fun fine => unclear fine.2.2
  case unparsedOutput =>
    rcases decided with ⟨some, told⟩ | ⟨_, understood, told⟩ | ⟨none, unclear, told⟩
    · exact iff_of_false (by simp [told]) fun lost => some lost.2.1
    · exact iff_of_false (by simp [told]) fun lost => not_or.mpr lost.2.2 understood
    · exact iff_of_true told ⟨unmarked, none, not_or.mp unclear⟩
  case failure => exact iff_of_false Bool.noConfusion unmarked
  case failed => exact fun marked => absurd marked unmarked
  case shown => exact fun _ => ReportParser.flatMap_report
  case total => exact Keyed.total_eq_length_flatMap _
  case distinct => exact ReportParser.nodup_keys_report
  case printed => exact CheckResult.printed_toValue _
  case summary => exact summary_finished
  case skipped =>
    intro some held
    exact absurd (ReportParser.skipped_report_of_isDocument held) (Nat.ne_of_gt some)
  case exitStatus => exact CommandLine.exitStatus_eq_zero_iff

/-- **How a check is classified.** A run whose tool is known, whose output is short enough and
on which the detection of failures returns has a result. It is a failure exactly if the mark
of failures is in the output, and shows nothing then. Else it tells of issues if the parser
yields a diagnostic; without one, of no issues if the output is blank or a document, and of
an output that was not understood if it is neither. -/
theorem check_classified (checker : Checker) (collection : Collection) (request : CheckRequest)
    (parser : ReportParser) (known : checker.parser? request = some parser)
    (fits : checker.Fits request) (failure? : Option ToolFailure)
    (detected : ToolFailure.detect? request.output = .ok failure?) :
    ∃ result, (checker.check collection request).answer = .ok result ∧
      result.failure = failure? ∧ result.IsClassified parser request := by
  have accepted := accept_eq_ok_iff.mpr ⟨fits, known⟩
  rw [answer_check, result_of_accept_ok accepted, detected]
  cases failure? with
  | none => exact ⟨_, rfl, rfl, isClassified_finished (detect?_eq_none_iff.mp detected)⟩
  | some failure =>
      refine ⟨_, rfl, rfl, isClassified_failed ?_ failure⟩
      by_contra unmarked
      rw [detect?_eq_none_iff.mpr unmarked] at detected
      cases detected

/-- A report of one unused name is said to be one issue. -/
theorem check_classified_unused :
    ∃ result,
      (({ registry := ⟨[{}]⟩ } : Checker).check .empty (.ofLint PlainIssue.unused.text)).answer =
        .ok result ∧
      result.outcome = .issuesFound ∧ result.failure = none ∧ result.total = 1 ∧
      result.summary = "Mago lint: Found 1 issue(s)" := by
  have unmarked : ¬ errorMark <:+: (CheckRequest.ofLint PlainIssue.unused.text).output.toList :=
    unmarked_unused
  obtain ⟨result, answered, failure, classified⟩ := check_classified { registry := ⟨[{}]⟩ } .empty
    (.ofLint PlainIssue.unused.text) {} rfl (by decide) none (detect?_eq_none_iff.mpr unmarked)
  have yields : ({} : ReportParser).yielded PlainIssue.unused.text (.file "/x.php") =
      [PlainIssue.unused.diagnostic "mago" "/x.php"] :=
    PlainIssue.unused.diagnostics_eq (.text rfl) (.pinned "/x.php") "mago"
  have shown : result.diagnostics.flatMap Prod.snd =
      [PlainIssue.unused.diagnostic "mago" "/x.php"] := (classified.shown unmarked).trans yields
  have found := classified.issuesFound.mpr ⟨unmarked, yields ▸ List.cons_ne_nil _ _⟩
  have one : result.total = 1 := by
    rw [classified.total, shown]
    rfl
  refine ⟨result, answered, found, failure, one, ?_⟩
  rw [classified.summary found, one]
  rfl

end Checker

end LintReport
